import Descent.Proofs.CommandLine.Parse
import Descent.Proofs.Json.Trailing

/-!
# How a text arrives does not matter

A text that is given as an argument is taken as it is, while one that is read from a file or from the
standard input may lose a line end at its end. For both grammars this makes no difference: blanks at
the end of a JSON text belong to it, and what follows an assignment is left over
(`Builtin.accepts_withoutLineEnd`). So the status of a run depends on nothing but the grammar and the
text (`status_of_text`).
-/

namespace Descent

open CommandLine

namespace Builtin

variable {text whole : List Char}

/-- The run of the grammar on a text is a success. -/
def Accepts (b : Builtin) (text : List Char) : Prop :=
  ∃ p store r, b.parser = .ok (p, store) ∧ store.run p (.ofList text) = some r ∧
    r.outcome.ok = true

/-- The grammar accepts a text just if its run says so. -/
theorem accepts_iff_ok {b : Builtin} {p : Parser} {store : Store} {r : Run}
    (hparser : b.parser = .ok (p, store)) (hrun : store.run p (.ofList text) = some r) :
    b.Accepts text ↔ r.outcome.ok = true := by
  constructor
  · rintro ⟨p', store', r', hparser', hrun', hok⟩
    cases hparser.symm.trans hparser'
    cases hrun.symm.trans hrun'
    exact hok
  · exact fun hok => ⟨p, store, r, hparser, hrun, hok⟩

/-- Accepted as documents are the JSON texts that nest no deeper than is allowed. -/
theorem accepts_json_iff :
    json.Accepts text ↔ ∃ d ≤ Json.maxDepth, text ∈ Json.Standard.text d := by
  obtain ⟨r, hrun, hdocument⟩ := Json.exists_run_entryIn .empty (.ofList text)
  rw [accepts_iff_ok parser_json hrun]
  exact Json.ok_iff_mem_text (Json.table_builtStore .empty) hdocument

/-- Accepted as assignments are the texts that start with one. -/
theorem accepts_assignment_iff :
    assignment.Accepts text ↔ ∃ m ∈ Assignment.words, m <+: text := by
  obtain ⟨r, hrun⟩ := Option.isSome_iff_exists.1 (Assignment.run_isSome .empty (.ofList text))
  rw [accepts_iff_ok parser_assignment hrun]
  exact Assignment.ok_iff_starts (Assignment.table_builtStore .empty) (.of_step hrun)

/-- A line end at the end of a text makes no difference to either grammar. -/
theorem accepts_withoutLineEnd (b : Builtin) (h : WithoutLineEnd text whole) :
    b.Accepts whole ↔ b.Accepts text := by
  cases b with
  | json =>
    have hblanks {n : List Char} (hn : ∀ c ∈ n, c ∈ [' ', '\t', '\n', '\r']) :
        json.Accepts (text ++ n) ↔ json.Accepts text := by
      simp only [accepts_json_iff,
        Json.Standard.append_mem_text_iff (mem_kstar_single_iff.2 hn)]
    cases h with
    | both => exact hblanks (by simp)
    | one _ => exact hblanks (by simp)
    | none _ => rfl
  | assignment =>
    have hchar {c : Char} (hc : c.isDigit = false) {text : List Char} :
        assignment.Accepts (text ++ [c]) ↔ assignment.Accepts text := by
      simp only [accepts_assignment_iff, Assignment.starts_concat_iff hc]
    cases h with
    | both =>
      rw [show text ++ ['\r', '\n'] = text ++ ['\r'] ++ ['\n'] by simp, hchar rfl, hchar rfl]
    | one _ => exact hchar rfl
    | none _ => rfl

end Builtin

namespace CommandLine

variable {s : Surroundings} {given : List Given} {settings : Settings} {text : List Char}

/-- A text arrives: as an argument, as the content of a file, or on the standard input. -/
inductive Brings (s : Surroundings) (given : List Given) (text : List Char) : Prop
  | argument (htext : .text (String.ofList text) ∈ given)
  | file {path : String} (hpath : .path path ∈ given) (hne : path ≠ "-")
      (hfile : s.file path = .ok text.utf8Encode)
  | standard (hnone : ∀ t, .text t ∉ given) (hpath : ∀ path, .path path ∈ given → path = "-")
      (hinput : s.input = text.utf8Encode)

/-- Bytes that are read are the input, maybe without a line end at its end. -/
theorem Source.exists_input (hnone : ∀ t, .text t ∉ given)
    (h : Source s given (.ok text.utf8Encode)) (trims : Bool) :
    ∃ taken, Input s given trims taken ∧ (taken = text ∨ WithoutLineEnd taken text) := by
  cases trims with
  | true =>
    have hdrops : WithoutLineEnd (dropFinalLineEnd text) text := dropFinalLineEnd_eq_iff.1 rfl
    exact ⟨_, .read hnone h hdrops, .inr hdrops⟩
  | false => exact ⟨text, .read hnone h rfl, .inl rfl⟩

/-- A text that arrives is the input, maybe without a line end at its end. -/
theorem Brings.exists_input (h : Brings s given text) (hagrees : Agrees given) (trims : Bool) :
    ∃ taken, Input s given trims taken ∧ (taken = text ∨ WithoutLineEnd taken text) := by
  cases h with
  | argument htext => exact ⟨text, .given htext String.toList_ofList.symm, .inl rfl⟩
  | @file path hpath hne hfile =>
    have hnone : ∀ t, .text t ∉ given := by
      intro t ht
      rcases hagrees.notBoth with hno | hno
      · exact hno (List.mem_map_of_mem hpath)
      · exact hno (List.mem_map_of_mem ht)
    exact Source.exists_input hnone (hfile ▸ .file hpath hne) trims
  | standard hnone hpath hinput =>
    exact Source.exists_input hnone (hinput ▸ .standard hpath) trims

/-- The status of a run tells whether the grammar accepts the input. -/
theorem status_parse (hagrees : Agrees given)
    (hload : Settings.load (layers s given) = .ok settings)
    (htext : Input s given settings.trimsLineEnd text) :
    settings.grammar.Accepts text ∧ (parse s given).status = 0 ∨
      ¬ settings.grammar.Accepts text ∧ (parse s given).status = 1 := by
  obtain ⟨p, store, hparser, hends⟩ := settings.grammar.exists_parser
  obtain ⟨r, hrun⟩ := hends (.ofList text)
  have hinput := (input_eq_ok_iff hagrees).2 htext
  rw [parse_eq, hload]
  dsimp only
  rw [hinput]
  dsimp only
  rw [answer_eq hparser hrun, Builtin.accepts_iff_ok hparser hrun]
  cases r.outcome.ok with
  | true => exact .inl ⟨rfl, rfl⟩
  | false => exact .inr ⟨Bool.false_ne_true, rfl⟩

/-- An option with its text attached gives that text. -/
theorem read_text (t : String) :
    Request.read ["parse", "--text=" ++ t] = .ok (.parse [.text t]) := by
  have hword : ("--text=" ++ t).toList = '-' :: '-' :: ("text=".toList ++ t.toList) := by
    rw [String.toList_append]
    rfl
  have hname : ("text=".toList ++ t.toList).takeWhile (· != '=') = "text".toList := rfl
  have hvalue : ("text=".toList ++ t.toList).dropWhile (· != '=') = '=' :: t.toList := rfl
  have hlong : (Reader.start (some .parse)).takeLong ("text=".toList ++ t.toList) =
      .ok ⟨some .parse, [.text t], none, false⟩ := by
    simp only [Reader.takeLong, hname, hvalue, String.ofList_toList]
    rfl
  have hstep : (Reader.start (some .parse)).step ("--text=" ++ t) =
      .ok ⟨some .parse, [.text t], none, false⟩ := by
    rw [Reader.step, hword]
    exact hlong
  have hverb : Request.ofVerb .parse ["--text=" ++ t] = .ok (.parse [.text t]) := by
    simp only [Request.ofVerb, Reader.steps, List.foldlM, hstep]
    rfl
  have hwords : Request.ofWords (Reader.start none) ["parse", "--text=" ++ t] =
      Request.ofVerb .parse ["--text=" ++ t] := rfl
  rw [Request.read, hwords, hverb]

/-- The status of a run does not depend on how the text arrives, nor on any setting but the grammar: it
tells whether the grammar accepts the text, with or without a line end at its end. -/
theorem status_of_text (b : Builtin) (text : List Char) :
    (b.Accepts (dropFinalLineEnd text) ↔ b.Accepts text) ∧
      Request.read ["parse", "--text=" ++ String.ofList text] =
        .ok (.parse [.text (String.ofList text)]) ∧
      ∃ status, (b.Accepts text ∧ status = 0 ∨ ¬ b.Accepts text ∧ status = 1) ∧
        ∀ s words given settings, Request.read words = .ok (.parse given) →
          Settings.load (layers s given) = .ok settings → settings.grammar = b →
          Brings s given text → (run s words).status = status := by
  have hdrops := b.accepts_withoutLineEnd (dropFinalLineEnd_eq_iff.1 (rfl : _ = dropFinalLineEnd text))
  obtain ⟨status, hstatus⟩ :
      ∃ status, b.Accepts text ∧ status = 0 ∨ ¬ b.Accepts text ∧ status = 1 := by
    by_cases h : b.Accepts text
    · exact ⟨0, .inl ⟨h, rfl⟩⟩
    · exact ⟨1, .inr ⟨h, rfl⟩⟩
  refine ⟨hdrops.symm, read_text _, status, hstatus, ?_⟩
  rintro s words given settings hread hload rfl hbrings
  have hagrees := Request.agrees_of_read hread
  obtain ⟨taken, htaken, hsame⟩ := hbrings.exists_input hagrees settings.trimsLineEnd
  have haccepts : settings.grammar.Accepts text ↔ settings.grammar.Accepts taken := by
    rcases hsame with rfl | hsame
    · rfl
    · exact settings.grammar.accepts_withoutLineEnd hsame
  rw [haccepts] at hstatus
  rw [run_eq_parse hread]
  rcases hstatus with ⟨h, rfl⟩ | ⟨h, rfl⟩
  · exact ((status_parse hagrees hload htaken).resolve_right fun hno => hno.1 h).2
  · exact ((status_parse hagrees hload htaken).resolve_left fun hyes => h hyes.1).2

/-- The command line that names a file of settings, with the text on it. -/
def textWords : List String := ["parse", "--config", "a.toml", "--text=a = 1\r\n"]

/-- What it gives to the run. -/
def textGiven : List Given := [.config "a.toml", .text "a = 1\r\n"]

/-- An assignment with a line end, on the command line and on the standard input. -/
theorem status_of_text_assignment : ∃ status,
    (run namingSurroundings namingWords).status = status ∧
      (run namingSurroundings textWords).status = status := by
  obtain ⟨_, _, status, _, hstatus⟩ := status_of_text .assignment "a = 1\r\n".toList
  have hread : Request.read namingWords = .ok (.parse namingGiven) := rfl
  have hread' : Request.read textWords = .ok (.parse textGiven) := rfl
  have hlayers : layers namingSurroundings textGiven = layers namingSurroundings namingGiven := rfl
  have hload' := load_naming
  rw [← hlayers] at hload'
  refine ⟨status, ?_, ?_⟩
  · exact hstatus _ _ _ _ hread load_naming rfl (.standard (by simp [namingGiven])
      (by simp [namingGiven]) (by cbv))
  · exact hstatus _ _ _ _ hread' hload' rfl (.argument (by simp [textGiven]))

end CommandLine

end Descent
