import Descent.Proofs.CommandLine.Delivery

/-!
# Options that stand apart from their values

The word after an option is its value, unless it looks like an option: such a word is never a value, and
then the command line is refused, whatever else the word might mean (`Reader.refused_of_looksLikeOption`).
So a text that stands after its option is treated like one that is attached to it, or it is refused
(`run_text_apart`). Negative numbers are JSON and look like options.
-/

namespace Descent

/-- Whole numbers, with a sign or without, are JSON texts. -/
theorem Json.Standard.whole_mem_text {sign m : List Char}
    (hsign : sign ∈ ({['-']} : Language Char) + 1) (h : m ∈ int) : sign ++ m ∈ text 0 := by
  have hmissing (part : Language Char) : [] ∈ part + 1 := .inr rfl
  have hnumber : sign ++ m ∈ number := by
    simpa [number] using Language.append_mem_mul
      (Language.append_mem_mul (Language.append_mem_mul hsign h) (hmissing frac)) (hmissing exp)
  have hvalue : sign ++ m ∈ derived .value 0 := Derives.scalar (.inl (.inr hnumber))
  have hblank : [] ∈ ws := Language.nil_mem_kstar _
  simpa [text] using Language.append_mem_mul (Language.append_mem_mul hblank hvalue) hblank

namespace CommandLine

/-- A word looks like an option if it is a hyphen with something after it. -/
def LooksLikeOption (word : String) : Prop := ∃ c rest, word.toList = '-' :: c :: rest

/-- Reading ends with a complaint. -/
def Refused {α : Type} (x : Except Stop α) : Prop := ∃ e, x = .error (.refused e)

/-- What comes after a complaint is not done. -/
theorem Refused.bind {α β : Type} {x : Except Stop α} (h : Refused x) (f : α → Except Stop β) :
    Refused (x >>= f) := by
  obtain ⟨e, rfl⟩ := h
  exact ⟨e, rfl⟩

namespace Reader

variable {r : Reader} {a : Argument} {word : String}

/-- An argument whose value is not there yet is not taken. -/
theorem refused_settle (h : r.pending = some (a, none)) : Refused r.settle :=
  ⟨.missingValue a, by rw [settle, h]⟩

/-- No option that is written out can come next. -/
theorem refused_takeLong (h : r.pending = some (a, none)) (body : List Char) :
    Refused (r.takeLong body) := by
  -- An option that is not known is refused by itself, and so is a value that is not needed.
  unfold takeLong
  dsimp only
  split
  · exact ⟨_, rfl⟩
  · split
    · exact (refused_settle h).bind _
    · exact ⟨_, rfl⟩
  · split
    · exact (refused_settle h).bind _
    · exact (refused_settle h).bind _

/-- No option that is a single letter can come next. -/
theorem refused_takeLetters (h : r.pending = some (a, none)) (c : Char) (rest : List Char) :
    Refused (r.takeLetters (c :: rest)) := by
  unfold takeLetters
  split
  · exact ⟨_, rfl⟩
  · split
    · split <;> exact (refused_settle h).bind _
    · exact ((refused_settle h).bind _).bind _

/-- A word that looks like an option is not taken for a value, not even if it only says that no more
options follow: then the value is missing in the end. -/
theorem refused_of_looksLikeOption (h : r.pending = some (a, none)) (hopen : r.optionsEnded = false)
    (hword : LooksLikeOption word) : Refused (r.step word >>= finish) := by
  obtain ⟨c, rest, hchars⟩ := hword
  unfold step
  rw [hopen, if_neg Bool.false_ne_true, hchars]
  split
  · exact Refused.bind (refused_settle (r := { r with optionsEnded := true }) h) _
  · exact (refused_takeLong h _).bind _
  · exact (refused_takeLetters h _ _).bind _
  next _ hlong hletters =>
    exact (hletters c rest rfl).elim

/-- Any other word is. -/
theorem step_value (h : r.pending = some (a, none)) (hopen : r.optionsEnded = false)
    (hword : ¬LooksLikeOption word) : r.step word = .ok { r with pending := some (a, some word) } := by
  unfold step
  rw [hopen, if_neg Bool.false_ne_true]
  have hplain (c : Char) (rest : List Char) : word.toList ≠ '-' :: c :: rest :=
    fun hchars => hword ⟨c, rest, hchars⟩
  split
  next hchars =>
    exact absurd hchars (hplain _ _)
  next hchars =>
    exact absurd hchars (hplain _ _)
  next hchars =>
    exact absurd hchars (hplain _ _)
  · rw [takeWord, h, hopen]

end Reader

/-- Reading stands behind an option for a text whose value is not there yet. -/
def Reader.awaitingText : Reader := ⟨some .parse, [], some (.text, none), false⟩

/-- What is read when a word follows that option. -/
theorem ofWords_text (word : String) :
    Request.ofWords (Reader.start none) ["parse", "--text", word] =
      (Reader.awaitingText.step word >>= Reader.finish) >>= fun given => .ok (.parse given) := by
  have hoption : (Reader.start (some .parse)).step "--text" = pure Reader.awaitingText := rfl
  change Request.ofVerb .parse ["--text", word] = _
  simp only [Request.ofVerb, Reader.steps, List.foldlM_cons, List.foldlM_nil, hoption, pure_bind,
    bind_pure, bind_assoc]
  rfl

/-- A text that stands apart is given, if it does not look like an option. -/
theorem read_apart {t : String} (h : ¬LooksLikeOption t) :
    Request.read ["parse", "--text", t] = .ok (.parse [.text t]) := by
  rw [Request.read, ofWords_text, Reader.step_value (a := .text) rfl rfl h]
  rfl

/-- If it does, the command line is not understood. -/
theorem exists_read_apart_error {t : String} (h : LooksLikeOption t) :
    ∃ e, Request.read ["parse", "--text", t] = .error e := by
  obtain ⟨e, he⟩ := (Reader.refused_of_looksLikeOption (r := .awaitingText) rfl rfl h).bind
    fun given => .ok (Request.parse given)
  exact ⟨e, by rw [Request.read, ofWords_text, he]⟩

variable {s : Surroundings} {settings : Settings} {t : String}

/-- The status of a run on a text that is attached to its option tells whether the grammar accepts the
text. -/
theorem status_text (h : Settings.load (layers s [.text t]) = .ok settings) :
    settings.grammar.Accepts t.toList ∧ (run s ["parse", "--text=" ++ t]).status = 0 ∨
      ¬settings.grammar.Accepts t.toList ∧ (run s ["parse", "--text=" ++ t]).status = 1 := by
  rw [run_eq_parse (read_text t)]
  exact status_parse (Request.agrees_of_read (read_text t)) h (.given (List.mem_singleton_self _) rfl)

/-- Where JSON is parsed, the status of a run on a text that is attached to its option is zero for
the JSON texts that nest no deeper than is allowed. -/
theorem status_text_json (h : Settings.load (layers s [.text t]) = .ok settings)
    (hjson : settings.grammar = .json) : (run s ["parse", "--text=" ++ t]).status = 0 ↔
      ∃ d ≤ Json.maxDepth, t.toList ∈ Json.Standard.text d := by
  rw [← Builtin.accepts_json_iff, ← hjson]
  rcases status_text h with ⟨haccepts, hstatus⟩ | ⟨hno, hstatus⟩
  · exact iff_of_true hstatus haccepts
  · exact iff_of_false (fun hzero => by rw [hstatus] at hzero; cases hzero) hno

/-- Without files of settings, texts are parsed as JSON. -/
theorem load_default (hmissing : ∀ path ∈ settingsPaths s.folder localSettings, s.isFile path = true →
    ∃ e, s.file path = .error e ∧ e.meansNoFile = true) :
    ∃ settings, Settings.load (layers s [.text t]) = .ok settings ∧ settings.grammar = .json := by
  rw [layers, settingsFile_of_missing hmissing]
  refine ⟨⟨.json, .text, true, "warn"⟩, ?_, rfl⟩
  cbv

/-- A text that stands apart from its option is treated like one that is attached to it, unless it looks
like an option; then nothing comes of the run. Where JSON is parsed, as it is where there are no files
of settings, the status of a text that is attached is zero if it is a JSON text that nests no deeper
than is allowed, and that of a text that stands apart if it does not look like an option either. -/
theorem run_text_apart (s : Surroundings) (t : String) :
    (¬LooksLikeOption t →
      run s ["parse", "--text", t] = run s ["parse", "--text=" ++ t]) ∧
    (LooksLikeOption t →
      (run s ["parse", "--text", t]).status = 2 ∧ (run s ["parse", "--text", t]).output = []) ∧
    (∀ settings, Settings.load (layers s [.text t]) = .ok settings → settings.grammar = .json →
      ((run s ["parse", "--text=" ++ t]).status = 0 ↔
        ∃ d ≤ Json.maxDepth, t.toList ∈ Json.Standard.text d) ∧
      ((run s ["parse", "--text", t]).status = 0 ↔
        ¬LooksLikeOption t ∧ ∃ d ≤ Json.maxDepth, t.toList ∈ Json.Standard.text d)) ∧
    ((∀ path ∈ settingsPaths s.folder localSettings, s.isFile path = true →
        ∃ e, s.file path = .error e ∧ e.meansNoFile = true) →
      ∃ settings, Settings.load (layers s [.text t]) = .ok settings ∧ settings.grammar = .json) := by
  have hsame (h : ¬LooksLikeOption t) :
      run s ["parse", "--text", t] = run s ["parse", "--text=" ++ t] := by
    rw [run_eq_parse (read_apart h), run_eq_parse (read_text t)]
  have hrefused (h : LooksLikeOption t) : (run s ["parse", "--text", t]).status = 2 ∧
      (run s ["parse", "--text", t]).output = [] := by
    obtain ⟨e, he⟩ := exists_read_apart_error h
    simp only [run, he, and_self]
  refine ⟨hsame, hrefused, fun settings hload hjson => ?_, load_default⟩
  have hattached := status_text_json hload hjson
  refine ⟨hattached, ?_⟩
  by_cases h : LooksLikeOption t
  · have htwo := (hrefused h).1
    exact iff_of_false (fun hzero => by rw [htwo] at hzero; cases hzero) fun hno => hno.1 h
  · rw [hsame h, hattached, and_iff_right h]

/-- The digit one is a whole number. -/
theorem one_mem_int : ['1'] ∈ Json.Standard.int := by
  have hone : ['1'] ∈ Json.Standard.nonzero := ⟨'1', by decide, rfl⟩
  exact .inr (Language.append_mem_mul hone (Language.nil_mem_kstar _))

/-- A number without a sign is parsed, in a place without files, and a word that looks like an option
is not. -/
theorem run_text_apart_one :
    (run emptySurroundings ["parse", "--text", "1"]).status = 0 ∧
      run emptySurroundings ["parse", "--text", "1"] =
        run emptySurroundings ["parse", "--text=1"] ∧
      (run emptySurroundings ["parse", "--text", "--"]).status = 2 := by
  obtain ⟨hsame, -, hjson, hload⟩ := run_text_apart emptySurroundings "1"
  have hplain : ¬LooksLikeOption "1" := by
    rintro ⟨c, rest, h⟩
    cases h
  have hmem : "1".toList ∈ Json.Standard.text 0 := Json.Standard.whole_mem_text (.inr rfl) one_mem_int
  obtain ⟨settings, hload, hgrammar⟩ := hload fun path _ _ => ⟨.missing, rfl, rfl⟩
  refine ⟨(hjson settings hload hgrammar).2.2 ⟨hplain, 0, by decide, hmem⟩, hsame hplain, ?_⟩
  exact ((run_text_apart emptySurroundings "--").2.1 ⟨'-', [], rfl⟩).1

/-- A negative number is a JSON text, and it is parsed if it is attached to its option, but refused if
it stands apart. -/
theorem negative_number_refused :
    "-1".toList ∈ Json.Standard.text 0 ∧
      (run emptySurroundings ["parse", "--text=-1"]).status = 0 ∧
      (run emptySurroundings ["parse", "--text", "-1"]).status = 2 := by
  have hsign : ['-'] ∈ ({['-']} : Language Char) + 1 := .inl rfl
  have hmem : "-1".toList ∈ Json.Standard.text 0 := Json.Standard.whole_mem_text hsign one_mem_int
  obtain ⟨settings, hload, hjson⟩ := load_default (s := emptySurroundings) (t := "-1")
    fun path _ _ => ⟨.missing, rfl, rfl⟩
  refine ⟨hmem, (status_text_json hload hjson).2 ⟨0, by decide, hmem⟩, ?_⟩
  obtain ⟨e, he⟩ := exists_read_apart_error (t := "-1") ⟨'1', [], rfl⟩
  rw [run, he]

end CommandLine

end Descent
