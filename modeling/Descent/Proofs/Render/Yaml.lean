import Descent.Proofs.Render.Faithful

/-!
# YAML renderings are faithful

A text that is a value in YAML is written in one of four styles, and its first character tells in which:
a quote of either kind, a bar, or any other for a text that stands as it is. In each style the text is
read back, up to the end of its last line and no further, whatever the text holds. Only a block does not
say where it ends: it goes on as long as lines are set in or empty, so what follows must not look like
more of it (`readScalar?_written`). The name of the next key does not, so an outcome is read back from
its YAML rendering (`Render.yaml_faithful`).
-/

namespace Descent.Yaml

open Escaping

variable {s rest : List Char} {c : Char}

/-- Reads to the end of the line, and tells what follows that. -/
def readLine (chars : List Char) : List Char × List Char :=
  (chars.takeWhile (· != '\n'), (chars.dropWhile (· != '\n')).tail)

/-- A line is read back. -/
theorem readLine_append (h : '\n' ∉ s) (rest : List Char) :
    readLine (s ++ '\n' :: rest) = (s, rest) := by
  have hline : ∀ c ∈ s, (c != '\n') = true := fun c hc => bne_iff_ne.2 (ne_of_mem_of_not_mem hc h)
  rw [readLine, List.takeWhile_append_of_pos hline, List.dropWhile_append_of_pos hline]
  simp

/-! ## Double quotes -/

/-- A digit that is a capital letter has the same value. -/
theorem hexValue?_toUpper_digitChar :
    ∀ n < 16, Pattern.hexValue? n.digitChar.toUpper = Pattern.hexValue? n.digitChar := by decide

/-- Digits that are capital letters write the same number. -/
theorem hexNumber?_map_toUpper {digits : List Char}
    (h : ∀ c ∈ digits, Pattern.hexValue? c.toUpper = Pattern.hexValue? c) :
    Pattern.hexNumber? (digits.map Char.toUpper) = Pattern.hexNumber? digits := by
  have hfold (n : ℕ) : (digits.map Char.toUpper).foldlM
      (fun n d => (Pattern.hexValue? d).map fun v => n * 16 + v) n =
        digits.foldlM (fun n d => (Pattern.hexValue? d).map fun v => n * 16 + v) n := by
    induction digits generalizing n with
    | nil => rfl
    | cons c digits ih =>
      obtain ⟨hc, hdigits⟩ := List.forall_mem_cons.1 h
      rw [List.map_cons, List.foldlM_cons, List.foldlM_cons, hc]
      simp only [ih hdigits]
  rw [Pattern.hexNumber?, Pattern.hexNumber?, List.isEmpty_map, hfold]

/-- A number is read back from so many digits. -/
theorem hexNumber?_hexWidth (width n : ℕ) : Pattern.hexNumber? (hexWidth width n) = some n := by
  have hzero : '0'.toUpper = '0' := by decide
  have hmap : hexWidth width n = (List.replicate (width - (Nat.toDigits 16 n).length) '0' ++
      Nat.toDigits 16 n).map Char.toUpper := by
    simp only [hexWidth, List.length_map, List.map_append, List.map_replicate, hzero]
  rw [hmap, hexNumber?_map_toUpper, hexNumber?_toDigits]
  intro c hc
  rcases List.mem_append.1 hc with hc | hc
  · rw [List.eq_of_mem_replicate hc, hzero]
  · obtain ⟨n, hn, rfl⟩ := exists_of_mem_toDigits hc
    exact hexValue?_toUpper_digitChar n hn

/-- A number has so many digits, if that is enough. -/
theorem length_hexWidth {width n : ℕ} (hwidth : 0 < width) (h : n < 16 ^ width) :
    (hexWidth width n).length = width := by
  have hle := (Nat.length_toDigits_le_iff (by decide) hwidth).2 h
  simp only [hexWidth, List.length_append, List.length_replicate, List.length_map]
  omega

/-- The character whose code so many digits write. -/
def readCode (width : ℕ) (chars : List Char) : Option (Char × List Char) := do
  let code ← Pattern.hexNumber? (chars.take width)
  let c ← Pattern.charOfCode? code
  return (c, chars.drop width)

/-- One character inside double quotes. -/
def readChar : CharReader
  | '\\' :: 'x' :: rest => readCode 2 rest
  | '\\' :: 'u' :: rest => readCode 4 rest
  | '\\' :: 'U' :: rest => readCode 8 rest
  | '\\' :: letter :: rest => (shortEscapes.find? (·.2 = letter)).map fun p => (p.1, rest)
  | c :: rest => some (c, rest)
  | [] => none

/-- A code is read back from enough digits. -/
theorem readCode_hexWidth {width : ℕ} (hwidth : 0 < width) (h : c.toNat < 16 ^ width)
    (rest : List Char) : readCode width (hexWidth width c.toNat ++ rest) = some (c, rest) := by
  have hlength := length_hexWidth hwidth h
  have htake : (hexWidth width c.toNat ++ rest).take width = hexWidth width c.toNat :=
    List.take_left' hlength
  have hdrop : (hexWidth width c.toNat ++ rest).drop width = rest := List.drop_left' hlength
  simp [readCode, htake, hdrop, hexNumber?_hexWidth, charOfCode?_toNat]

/-- The letters of the escapes tell them apart, also from the escapes with digits. -/
theorem find?_shortEscapes : ∀ p ∈ shortEscapes, p.2 ∉ ['x', 'u', 'U'] ∧
    shortEscapes.find? (·.2 = p.2) = some p := by decide

/-- An escape of one letter is read back. -/
theorem readChar_letter {letter : Char} (h : (c, letter) ∈ shortEscapes) (rest : List Char) :
    readChar ('\\' :: letter :: rest) = some (c, rest) := by
  obtain ⟨hletter, hfind⟩ := find?_shortEscapes _ h
  simp only [List.mem_cons, List.not_mem_nil, or_false, not_or] at hletter
  simp [readChar, hletter, hfind]

/-- Inside double quotes every character is read back. -/
theorem inverts_readChar : Inverts readChar '"' escape where
  begins c := by
    unfold escape
    split
    next hplain =>
      refine ⟨c, [], rfl, ?_⟩
      rintro rfl
      simp at hplain
    · split
      · exact ⟨_, _, rfl, by decide⟩
      · split_ifs <;> exact ⟨_, _, rfl, by decide⟩
  reads c rest := by
    unfold escape
    split
    next hplain =>
      have hc : c ≠ '\\' := by
        rintro rfl
        simp at hplain
      simp [readChar, hc]
    · split
      next letter hlookup =>
        obtain ⟨front, back, hsplit, -⟩ := List.lookup_eq_some_iff.1 hlookup
        exact readChar_letter (by simp [hsplit]) rest
      · have hcode : c.toNat < 16 ^ 8 := by
          have hvalid : c.toNat < 0xD800 ∨ 0xDFFF < c.toNat ∧ c.toNat < 0x110000 := c.valid
          omega
        split_ifs with h₂ h₄
        · exact readCode_hexWidth (by decide) (by omega) rest
        · exact readCode_hexWidth (by decide) (by omega) rest
        · exact readCode_hexWidth (by decide) hcode rest

/-! ## Single quotes -/

/-- What ends a line is neither a space nor a quote. -/
theorem ne_of_isBreak (h : isBreak c = true) : c ≠ ' ' ∧ c ≠ '\x27' := by
  constructor <;> (rintro rfl; exact absurd h (by decide))

/-- Reads text in single quotes up to the closing one, when a line has just ended or not. What comes
after the end of a line is set in. -/
def readSingle : Bool → List Char → Option (List Char × List Char)
  | true, ' ' :: ' ' :: rest => readSingle false rest
  | _, '\x27' :: '\x27' :: rest => (readSingle false rest).map fun (s, rest) => ('\x27' :: s, rest)
  | _, '\x27' :: rest => some ([], rest)
  | _, c :: rest => (readSingle (isBreak c) rest).map fun (s, rest) => (c :: s, rest)
  | _, [] => none

/-- In the middle of a line a character is read back, a quote from two. -/
theorem readSingle_char (hc : isBreak c = false) (chars : List Char) :
    readSingle false ((if c = '\x27' then [c, c] else [c]) ++ chars) =
      (readSingle false chars).map fun (s, rest) => (c :: s, rest) := by
  split
  next hquote =>
    rw [hquote]
    rfl
  next hquote =>
    simp [readSingle, hquote, hc]

/-- Text in single quotes is read back, if no further quote follows. -/
theorem readSingle_singleInside (hrest : rest.head? ≠ some '\x27') (afterBreak : Bool) :
    readSingle afterBreak (singleInside afterBreak s ++ '\x27' :: rest) = some (s, rest) := by
  -- After each character the reader and the writer agree on whether a line has just ended.
  induction s generalizing afterBreak with
  | nil =>
    have hclosing : readSingle false ('\x27' :: rest) = some ([], rest) := by
      cases rest with
      | nil => rfl
      | cons c rest =>
        have hc : c ≠ '\x27' := fun hc => hrest (congrArg some hc)
        simp [readSingle, hc]
    cases afterBreak with
    | true => exact hclosing
    | false => exact hclosing
  | cons c s ih =>
    by_cases hc : isBreak c = true
    · obtain ⟨hspace, hquote⟩ := ne_of_isBreak hc
      simp [singleInside, hc, readSingle, hspace, hquote, ih]
    · rw [Bool.not_eq_true] at hc
      have hchar := readSingle_char hc (singleInside false s ++ '\x27' :: rest)
      rw [ih false, Option.map_some] at hchar
      simp only [singleInside, hc, Bool.false_eq_true, if_false, List.append_assoc]
      cases afterBreak with
      | true => exact hchar
      | false => exact hchar

/-! ## Blocks -/

/-- Reads the lines of a block, when a line has just ended or not. It ends before a line that holds
something and is not set in. -/
def readBlock : Bool → List Char → List Char × List Char
  | true, ' ' :: ' ' :: rest => readBlock false rest
  | afterBreak, c :: rest =>
    if afterBreak && !isBreak c then ([], c :: rest)
    else (readBlock (isBreak c) rest).map (c :: ·) id
  | _, [] => ([], [])

/-- What follows a block does not look like more of it: it begins with neither a space nor a line
end. -/
def Follows (rest : List Char) : Prop := ∀ c ∈ rest.head?, c ≠ ' ' ∧ isBreak c = false

/-- The block ends there. -/
theorem readBlock_of_follows (h : Follows rest) : readBlock true rest = ([], rest) := by
  cases rest with
  | nil => rfl
  | cons c rest =>
    obtain ⟨hspace, hc⟩ := h c rfl
    simp [readBlock, hspace, hc]

/-- Lines that end are read back. -/
theorem readBlock_indentLines (hrest : Follows rest) {afterBreak : Bool}
    (hends : (s.getLast?.map isBreak).getD afterBreak = true) :
    readBlock afterBreak (indentLines afterBreak s ++ rest) = (s, rest) := by
  induction s generalizing afterBreak with
  | nil =>
    obtain rfl : afterBreak = true := hends
    exact readBlock_of_follows hrest
  | cons c s ih =>
    -- The last character of the rest, or else this one, ends a line.
    rw [List.getLast?_cons, Option.map_some, Option.getD_some, ← Option.getD_map isBreak] at hends
    by_cases hc : isBreak c = true
    · obtain ⟨hspace, -⟩ := ne_of_isBreak hc
      rw [hc] at hends
      simp [indentLines, hc, readBlock, hspace, ih hends]
    · rw [Bool.not_eq_true] at hc
      rw [hc] at hends
      have hchar : readBlock false (c :: (indentLines false s ++ rest)) = (c :: s, rest) := by
        simp [readBlock, hc, ih hends]
      cases afterBreak with
      | true => simpa [indentLines, hc, indentation, readBlock] using hchar
      | false => simpa [indentLines, hc] using hchar

/-- The marks stand in one line. -/
theorem newline_not_mem_blockMarks : '\n' ∉ blockMarks s := by
  unfold blockMarks
  rw [List.mem_append, not_or]
  constructor
  · split <;> decide
  · split
    · decide
    · split <;> decide
    · split_ifs <;> decide

/-- The marks say whether the last line has no end. -/
theorem hyphen_mem_blockMarks_iff : '-' ∈ blockMarks s ↔ s.getLast?.any isBreak = false := by
  have hhint : '-' ∉ (if s.head?.any fun c => c == ' ' || isBreak c then ['2'] else []) := by
    split <;> decide
  unfold blockMarks
  rw [List.mem_append, or_iff_right hhint, ← List.head?_reverse]
  rcases s.reverse with _ | ⟨last, _ | ⟨previous, front⟩⟩
  · decide
  · cases h : isBreak last <;> simp [h]
  · cases h : isBreak last <;> cases h' : isBreak previous <;> simp [h, h']

/-- A text with an end added to its last line, if that has none. -/
def ended (s : List Char) : List Char := if s.getLast?.any isBreak then s else s ++ ['\n']

/-- Where an end is added to the last line that has none, all lines end. -/
theorem isBreak_last_ended : ((ended s).getLast?.map isBreak).getD true = true := by
  unfold ended
  split
  next hends =>
    obtain ⟨last, hlast, hbreak⟩ := (Option.any_eq_true ..).1 hends
    simp [hlast, hbreak]
  · simp [isBreak]

/-- A text with an end added to its last line is the text itself, up to a line end that the marks
tell of. -/
theorem dropLast_ended : (if '-' ∈ blockMarks s then (ended s).dropLast else ended s) = s := by
  simp only [hyphen_mem_blockMarks_iff, ended]
  cases s.getLast?.any isBreak with
  | true => rfl
  | false => exact List.dropLast_concat

/-- A line end at the end is not set in. -/
theorem indentLines_concat_newline (afterBreak : Bool) (s : List Char) :
    indentLines afterBreak (s ++ ['\n']) = indentLines afterBreak s ++ ['\n'] := by
  induction s generalizing afterBreak with
  | nil => rfl
  | cons c s ih =>
    simp only [List.cons_append, indentLines, ih]
    split_ifs <;> simp

/-- A block is a bar, its marks, and lines that all end. -/
theorem block_eq (s : List Char) :
    block s = '|' :: (blockMarks s ++ '\n' :: indentLines true (ended s)) := by
  unfold block ended
  split
  · simp
  · simp [indentLines_concat_newline]

/-- Reads what follows the bar of a block: its marks, and its lines. The line end at the end is dropped
if the marks say so. -/
def readMarked (chars : List Char) : List Char × List Char :=
  let (marks, lines) := readLine chars
  let (body, rest) := readBlock true lines
  (if '-' ∈ marks then body.dropLast else body, rest)

/-- The text in a block is read back. -/
theorem readMarked_block (hrest : Follows rest) :
    readMarked (blockMarks s ++ '\n' :: (indentLines true (ended s) ++ rest)) = (s, rest) := by
  simp only [readMarked, readLine_append newline_not_mem_blockMarks,
    readBlock_indentLines hrest isBreak_last_ended, dropLast_ended]

/-! ## All styles -/

/-- A text in a style. -/
def written (style : Style) (s : List Char) : List Char :=
  match style with
  | .plain => s ++ ['\n']
  | .single => single s ++ ['\n']
  | .double => double s ++ ['\n']
  | .block => block s

/-- A text that stands as it is is one line, and does not begin like one in another style. -/
def Style.Keeps (style : Style) (s : List Char) : Prop :=
  style = .plain → '\n' ∉ s ∧ ∀ c ∈ s.head?, c ∉ leadingIndicators

/-- The style for a text keeps it. -/
theorem keeps_style (s : List Char) : (style s).Keeps s := by
  intro hplain
  unfold style at hplain
  split_ifs at hplain with hnewline _ hallowed
  refine ⟨by simpa using hnewline, fun c hc hindicator => ?_⟩
  obtain ⟨rest, rfl⟩ := List.head?_eq_some_iff.1 hc
  have hfirst : (contexts (c :: rest)).any Context.isIndicator = true := by
    simp [contexts, contextsFrom, Context.isIndicator, hindicator]
  simp [plainAllowed, hfirst] at hallowed

/-- Reads a text in any style, and tells what follows its last line. -/
def readScalar? : List Char → Option (List Char × List Char)
  | '"' :: rest => (inside readChar '"' rest).map fun (s, rest) => (s, rest.tail)
  | '\x27' :: rest => (readSingle false rest).map fun (s, rest) => (s, rest.tail)
  | '|' :: rest => some (readMarked rest)
  | chars => some (readLine chars)

/-- A text that begins like one in no other style is read up to the end of the line. -/
theorem readScalar?_of_head (hnewline : '\n' ∉ s) (hhead : ∀ c ∈ s.head?, c ∉ leadingIndicators) :
    readScalar? (s ++ '\n' :: rest) = some (s, rest) := by
  cases s with
  | nil => rfl
  | cons c s =>
    have hother : c ≠ '"' ∧ c ≠ '\x27' ∧ c ≠ '|' := by
      refine ⟨?_, ?_, ?_⟩ <;> (rintro rfl; exact hhead _ rfl (by decide))
    rw [← readLine_append hnewline rest]
    simp [readScalar?, hother]

/-- In every style that keeps it a text is read back. -/
theorem readScalar?_written {style : Style} (h : style.Keeps s) (hrest : Follows rest) :
    readScalar? (written style s ++ rest) = some (s, rest) := by
  cases style with
  | plain =>
    obtain ⟨hnewline, hhead⟩ := h rfl
    simpa [written] using readScalar?_of_head hnewline hhead
  | single =>
    have hclosing : ('\n' :: rest).head? ≠ some '\x27' := by simp
    have hread := readSingle_singleInside (s := s) hclosing false
    simp [written, single, readScalar?, hread]
  | double =>
    have hread := inverts_readChar.inside_eq s ('\n' :: rest)
    simp [written, double, readScalar?, hread]
  | block =>
    have hread := readMarked_block (s := s) hrest
    simp [written, block_eq, readScalar?, hread]

/-- A value is read back, whichever style it is written in. -/
theorem readScalar?_scalar (hrest : Follows rest) :
    readScalar? (scalar s ++ rest) = some (s, rest) :=
  readScalar?_written (keeps_style s) hrest

/-- A line that looks like the next key is set in. -/
example : scalar "a\nremaining: b".toList = "|-\n  a\n  remaining: b\n".toList := by decide

end Descent.Yaml

namespace Descent.Render

open Json.Flat

/-- The outcome of which this YAML document tells. -/
def readYaml? (chars : List Char) : Option Outcome := do
  let rest ← chars.dropPrefix? "ok: ".toList
  let (ok, rest) ← readTruth? rest
  let rest ← rest.dropPrefix? "\nmatched: ".toList
  let (matched, rest) ← Yaml.readScalar? rest
  let rest ← rest.dropPrefix? "remaining: ".toList
  let (remaining, rest) ← Yaml.readScalar? rest
  if rest = [] then some (.ofParts ok matched (.ofList remaining)) else none

/-- The outcome is read back from its YAML rendering. -/
theorem readYaml?_yaml (o : Outcome) : readYaml? (yaml o) = some o := by
  have hprefix (name rest : List Char) : (name ++ rest).dropPrefix? name = some rest :=
    List.dropPrefix?_append_of_beq rest (beq_self_eq_true name)
  have hmatched (rest : List Char) : Yaml.readScalar? (Yaml.scalar o.matched ++
      ("remaining: ".toList ++ rest)) = some (o.matched, "remaining: ".toList ++ rest) := by
    refine Yaml.readScalar?_scalar ?_
    rintro c hc
    obtain rfl : 'r' = c := Option.some.inj hc
    decide
  have hremaining : Yaml.readScalar? (Yaml.scalar o.remaining.chars) =
      some (o.remaining.chars, []) := by
    have hread : Yaml.readScalar? (Yaml.scalar o.remaining.chars ++ []) =
        some (o.remaining.chars, []) := Yaml.readScalar?_scalar fun c hc => by cases hc
    rwa [List.append_nil] at hread
  unfold readYaml? yaml
  simp only [List.append_assoc, hprefix, readTruth?_truth, hmatched, hremaining, Option.bind_eq_bind,
    Option.bind_some, if_true, Text.ofList_chars, Outcome.ofParts_parts]

/-- Every outcome is read back from its YAML rendering, in whatever styles its texts are written, so
outcomes with the same rendering are the same. -/
theorem yaml_faithful :
    (∀ o, readYaml? (Format.yaml.render o) = some o) ∧ Function.Injective Format.yaml.render :=
  ⟨readYaml?_yaml, injective_of_read readYaml?_yaml⟩

end Descent.Render
