import Descent.Proofs.Json.Exactness
import Descent.Proofs.Text.Decoding
import Descent.Render.Basic

/-!
# Outcomes as documents

The JSON rendering of an outcome is an object without further objects in it, one member a line
(`json_eq`). Such an object is a JSON text, so the grammar accepts it as a whole, however many
brackets stand in its strings (`run_written`). A reader that knows strings and truth values gets the
members back in their order (`readObject?_write`).
-/

namespace Descent.Json.Flat

open Computability Escaping Standard

/-- A value that contains no others. -/
inductive Scalar
  | truth (b : Bool)
  | text (s : List Char)
  deriving DecidableEq

/-- The name of a member, and its value. -/
abbrev Member := List Char × Scalar

/-! ## Writing -/

/-- A value as it is written. -/
def Scalar.write : Scalar → List Char
  | truth b => Render.truth b
  | text s => JsonText.string s

/-- A member as it is written. -/
def writeMember (m : Member) : List Char := JsonText.string m.1 ++ ": ".toList ++ m.2.write

/-- Members on lines of their own, the first without what precedes it. -/
def writeMembers (m : Member) : List Member → List Char
  | [] => writeMember m
  | m' :: ms => writeMember m ++ ",\n  ".toList ++ writeMembers m' ms

/-- An object of at least one member. -/
def writeObject (m : Member) (ms : List Member) : List Char :=
  "\x7b\n  ".toList ++ writeMembers m ms ++ "\n\x7d\n".toList

/-- The rendering of an outcome is an object of three members. -/
theorem json_eq (o : Outcome) : Render.json o =
    writeObject ("ok".toList, .truth o.ok)
      [("matched".toList, .text o.matched), ("remaining".toList, .text o.remaining.chars)] := by
  have hok : JsonText.string "ok".toList = "\"ok\"".toList := by decide
  have hmatched : JsonText.string "matched".toList = "\"matched\"".toList := by decide
  have hremaining : JsonText.string "remaining".toList = "\"remaining\"".toList := by decide
  unfold Render.json writeObject
  simp only [writeMembers, writeMember, hok, hmatched, hremaining, Scalar.write, List.append_assoc]
  rfl

/-! ## The standard -/

/-- A bracket or separator is structural, with any blanks on both sides. -/
theorem mem_structural (lead : List Char) (c : Char) (trail : List Char)
    (hlead : ∀ d ∈ lead, d ∈ [' ', '\t', '\n', '\r'])
    (htrail : ∀ d ∈ trail, d ∈ [' ', '\t', '\n', '\r']) : lead ++ [c] ++ trail ∈ structural c :=
  Language.append_mem_mul
    (Language.append_mem_mul (mem_kstar_single_iff.2 hlead) (Set.mem_singleton _))
    (mem_kstar_single_iff.2 htrail)

/-- Hexadecimal digits, however many. -/
theorem mem_hexdig_pow {digits : List Char}
    (h : ∀ c ∈ digits, '0' ≤ c ∧ c ≤ '9' ∨ 'a' ≤ c ∧ c ≤ 'f' ∨ 'A' ≤ c ∧ c ≤ 'F') :
    digits ∈ hexdig ^ digits.length := by
  refine Language.mem_pow.2 ⟨digits.map fun c => [c], ?_, List.length_map _, fun word hword => ?_⟩
  · rw [← List.flatMap_def, List.flatMap_singleton']
  · obtain ⟨c, hc, rfl⟩ := List.mem_map.1 hword
    exact ⟨c, h c hc, rfl⟩

/-- A backslash and one of the characters that can follow it are an escape. -/
theorem mem_escape {c : Char} (hc : c ∈ ['"', '\\', '/', 'b', 'f', 'n', 'r', 't']) :
    ['\\', c] ∈ unescaped + escape :=
  .inr (Language.append_mem_mul (Set.mem_singleton ['\\']) (.inl ⟨c, hc, rfl⟩))

/-- The code of a control character is an escape. -/
theorem codeEscape_mem_escape {c : Char} (hc : c.toNat < 0x20) :
    ['\\', 'u'] ++ JsonText.fourDigits c.toNat ∈ unescaped + escape := by
  have hdigits : JsonText.fourDigits c.toNat ∈ hexdig ^ 4 := by
    rw [← JsonText.length_fourDigits c.toNat hc]
    refine mem_hexdig_pow fun d hd => ?_
    rcases List.mem_append.1 hd with hzero | hdigit
    · obtain rfl := List.eq_of_mem_replicate hzero
      decide
    · have hall : ∀ n < 16, '0' ≤ n.digitChar ∧ n.digitChar ≤ '9' ∨
          'a' ≤ n.digitChar ∧ n.digitChar ≤ 'f' ∨ 'A' ≤ n.digitChar ∧ n.digitChar ≤ 'F' := by decide
      obtain ⟨n, hn, rfl⟩ := exists_of_mem_toDigits hdigit
      exact hall n hn
  have hcode : ['u'] ++ JsonText.fourDigits c.toNat ∈ {['u']} * hexdig ^ 4 :=
    Language.append_mem_mul (Set.mem_singleton ['u']) hdigits
  change ['\\'] ++ (['u'] ++ JsonText.fourDigits c.toNat) ∈ unescaped + escape
  exact .inr (Language.append_mem_mul (Set.mem_singleton ['\\']) (.inr hcode))

/-- Each character of a text is written so as it may stand in a string. -/
theorem escape_mem (c : Char) : JsonText.escape c ∈ unescaped + escape := by
  unfold JsonText.escape
  split_ifs with hmark _ _ _ _ _ hlow
  · rcases hmark with rfl | rfl
    · exact mem_escape (by decide)
    · exact mem_escape (by decide)
  · exact mem_escape (by decide)
  · exact mem_escape (by decide)
  · exact mem_escape (by decide)
  · exact mem_escape (by decide)
  · exact mem_escape (by decide)
  · exact codeEscape_mem_escape hlow
  · have hprintable : '\x20' ≤ c := Nat.le_of_not_lt hlow
    exact .inl ⟨c, ⟨hprintable, fun hc => hmark (.inl hc), fun hc => hmark (.inr hc)⟩, rfl⟩

/-- A text is written as a string. -/
theorem string_mem (s : List Char) : JsonText.string s ∈ string := by
  have hinside : s.flatMap JsonText.escape ∈ (unescaped + escape)∗ := by
    induction s with
    | nil => exact Language.nil_mem_kstar _
    | cons c s ih =>
      rw [List.flatMap_cons]
      exact append_mem_kstar (escape_mem c) ih
  exact Language.append_mem_mul
    (Language.append_mem_mul (Set.mem_singleton ['"']) hinside) (Set.mem_singleton ['"'])

/-- A value is written as a value without structure. -/
theorem write_mem_scalar (v : Scalar) : v.write ∈ scalar := by
  cases v with
  | text s => exact .inr (string_mem s)
  | truth b =>
    cases b with
    | true => exact .inl (.inl (.inr rfl))
    | false => exact .inl (.inl (.inl (.inl rfl)))

/-- A member is written as an item of an object. -/
theorem derives_writeMember (m : Member) : Derives (.item .object) 0 (writeMember m) :=
  .member (string_mem m.1) (mem_structural [] ':' [' '] (by simp) (by simp))
    (.scalar (write_mem_scalar m.2))

/-- Members are written as the items of an object. -/
theorem derives_writeMembers (m : Member) (ms : List Member) :
    Derives (.items .object) 0 (writeMembers m ms) := by
  induction ms generalizing m with
  | nil => exact .last (derives_writeMember m)
  | cons m' ms ih =>
    exact .more (derives_writeMember m)
      (mem_structural [] ',' ['\n', ' ', ' '] (by simp) (by simp)) (ih m')

/-- An object is written as a JSON text. -/
theorem writeObject_mem_text (m : Member) (ms : List Member) : writeObject m ms ∈ text 1 := by
  have hopening : "\x7b\n  ".toList ∈ structural Container.object.opening :=
    mem_structural [] _ ['\n', ' ', ' '] (by simp) (by simp)
  have hclosing : "\n\x7d\n".toList ∈ structural Container.object.closing :=
    mem_structural ['\n'] _ ['\n'] (by simp) (by simp)
  have hvalue := Derives.full .object hopening (derives_writeMembers m ms) hclosing
  have hblank : [] ∈ ws := Language.nil_mem_kstar _
  have htext : [] ++ writeObject m ms ++ [] ∈ text 1 :=
    Language.append_mem_mul (Language.append_mem_mul hblank hvalue) hblank
  rwa [List.nil_append, List.append_nil] at htext

/-- Wherever the grammar has been built, it takes a written object as a whole. -/
theorem run_written (s : Store) (m : Member) (ms : List Member) :
    ∃ r, (builtStore s).run (entryIn s) (.ofList (writeObject m ms)) = some r ∧
      r.outcome = .success (writeObject m ms) (.ofList []) := by
  obtain ⟨r, hr, hruns⟩ := exists_run_entryIn s (.ofList (writeObject m ms))
  obtain ⟨l, haccepts⟩ :=
    accepts_document (table_builtStore s) (writeObject_mem_text m ms) (by decide)
  rw [List.append_nil] at haccepts
  exact ⟨r, hr, by rw [hruns.unique haccepts]⟩

/-! ## Reading -/

/-- The text without blanks at its front. -/
def skip (chars : List Char) : List Char := chars.dropWhile (· ∈ [' ', '\t', '\n', '\r'])

/-- What follows a bracket or separator and the blanks around it. -/
def after? (c : Char) (chars : List Char) : Option (List Char) :=
  match skip chars with
  | d :: rest => if d = c then some (skip rest) else none
  | [] => none

/-- A string, and what follows it. -/
def readString? : List Char → Option (List Char × List Char)
  | '"' :: rest => inside JsonText.readChar '"' rest
  | _ => none

/-- A truth value, and what follows it. -/
def readTruth? : List Char → Option (Bool × List Char)
  | 't' :: 'r' :: 'u' :: 'e' :: rest => some (true, rest)
  | 'f' :: 'a' :: 'l' :: 's' :: 'e' :: rest => some (false, rest)
  | _ => none

/-- A value, and what follows it. -/
def readScalar? (chars : List Char) : Option (Scalar × List Char) :=
  ((readTruth? chars).map fun (b, rest) => (Scalar.truth b, rest)).or
    ((readString? chars).map fun (s, rest) => (Scalar.text s, rest))

/-- A member, and what follows it. -/
def readMember? (chars : List Char) : Option (Member × List Char) := do
  let (name, rest) ← readString? chars
  let rest ← after? ':' rest
  let (value, rest) ← readScalar? rest
  return ((name, value), rest)

/-- Members as far as the commas go, and what follows them. The fuel is at least the number of
members. -/
def readMembers? : Nat → List Char → Option (List Member × List Char)
  | 0, _ => none
  | fuel + 1, chars => do
    let (m, rest) ← readMember? chars
    match after? ',' rest with
    | some rest => do
      let (ms, rest) ← readMembers? fuel rest
      return (m :: ms, rest)
    | none => return ([m], rest)

/-- The members of a document that is an object. -/
def readObject? (chars : List Char) : Option (List Member) := do
  let rest ← after? '\x7b' chars
  let (ms, rest) ← readMembers? chars.length rest
  let rest ← after? '\x7d' rest
  if rest.isEmpty then some ms else none

/-- A string is read back. -/
theorem readString?_string (s rest : List Char) :
    readString? (JsonText.string s ++ rest) = some (s, rest) := by
  have hinside := JsonText.inside_string s rest
  rw [JsonText.string, List.append_assoc, List.append_assoc]
  exact hinside

/-- A truth value is read back. -/
theorem readTruth?_truth (b : Bool) (rest : List Char) :
    readTruth? (Render.truth b ++ rest) = some (b, rest) := by
  cases b <;> rfl

/-- A value is read back. -/
theorem readScalar?_write (v : Scalar) (rest : List Char) :
    readScalar? (v.write ++ rest) = some (v, rest) := by
  cases v with
  | truth b => simp [readScalar?, Scalar.write, readTruth?_truth]
  | text s =>
    have htruth : readTruth? (JsonText.string s ++ rest) = none := rfl
    simp [readScalar?, Scalar.write, htruth, readString?_string]

/-- A member is read back. -/
theorem readMember?_write (m : Member) (rest : List Char) :
    readMember? (writeMember m ++ rest) = some (m, rest) := by
  have hvalue : after? ':' (": ".toList ++ (m.2.write ++ rest)) = some (m.2.write ++ rest) := by
    obtain ⟨name, v⟩ := m
    rcases v with (_ | _) | s <;> rfl
  simp only [readMember?, writeMember, List.append_assoc, readString?_string, Option.bind_eq_bind,
    Option.bind_some, hvalue, readScalar?_write]
  rfl

/-- Members are read back as far as no comma follows. -/
theorem readMembers?_write {fuel : Nat} (m : Member) {ms : List Member} (hfuel : ms.length < fuel)
    {rest : List Char} (hrest : after? ',' rest = none) :
    readMembers? fuel (writeMembers m ms ++ rest) = some (m :: ms, rest) := by
  induction ms generalizing m fuel with
  | nil =>
    obtain ⟨fuel, rfl⟩ := Nat.exists_eq_succ_of_ne_zero (Nat.ne_zero_of_lt hfuel)
    simp [readMembers?, writeMembers, readMember?_write, hrest]
  | cons m' ms ih =>
    obtain ⟨fuel, rfl⟩ := Nat.exists_eq_succ_of_ne_zero (Nat.ne_zero_of_lt hfuel)
    have hnext := ih m' (Nat.lt_of_succ_lt_succ hfuel)
    have hcomma : after? ',' (",\n  ".toList ++ (writeMembers m' ms ++ rest)) =
        some (writeMembers m' ms ++ rest) := by
      cases ms <;> rfl
    simp only [readMembers?, writeMembers, List.append_assoc, readMember?_write, hcomma,
      Option.bind_eq_bind, Option.bind_some, hnext]
    rfl

/-- Each member takes at least one character. -/
theorem length_lt_writeMembers (m : Member) (ms : List Member) :
    ms.length < (writeMembers m ms).length := by
  induction ms generalizing m with
  | nil => simp [writeMembers, writeMember, JsonText.string]
  | cons m' ms ih =>
    have hrest := ih m'
    simp only [writeMembers, List.length_append, List.length_cons]
    have hcomma : ",\n  ".toList.length = 4 := rfl
    omega

/-- The members of an object are read back. -/
theorem readObject?_write (m : Member) (ms : List Member) :
    readObject? (writeObject m ms) = some (m :: ms) := by
  have hopening : after? '\x7b' (writeObject m ms) =
      some (writeMembers m ms ++ "\n\x7d\n".toList) := by
    cases ms <;> rfl
  have hfuel : ms.length < (writeObject m ms).length := by
    have hlt := length_lt_writeMembers m ms
    simp only [writeObject, List.length_append]
    omega
  have hend : after? ',' "\n\x7d\n".toList = none := rfl
  have hmembers := readMembers?_write m hfuel hend
  simp only [readObject?, hopening, hmembers, Option.bind_eq_bind, Option.bind_some]
  rfl

end Descent.Json.Flat
