import Descent.Pattern.Escape
import Descent.Render.JsonText
import Descent.Text.Quoted
import Mathlib.Data.Nat.Notation
import Mathlib.Tactic.SplitIfs

/-!
# Texts back from their escapes

Quoted text and the strings of JSON are written character by character, each as itself or as an
escape, and end with a mark. A reader that tells each character and what follows its escape reads the
whole text back, up to the mark and no further (`Escaping.Inverts.inside_eq`). So two texts with the
same written form, whatever follows the mark, are the same.
-/

namespace Descent

namespace Escaping

/-- Reads one character from the front of a text, and tells what follows. -/
abbrev CharReader := List Char → Option (Char × List Char)

/-- Reads characters up to a mark. The fuel is more than the number of characters. -/
def readInside (read : CharReader) (mark : Char) :
    Nat → List Char → Option (List Char × List Char)
  | 0, _ => none
  | _ + 1, [] => none
  | fuel + 1, c :: rest =>
    if c = mark then some ([], rest)
    else do
      let (d, rest) ← read (c :: rest)
      let (ds, rest) ← readInside read mark fuel rest
      return (d :: ds, rest)

/-- The text before the mark, and what follows the mark. -/
def inside (read : CharReader) (mark : Char) (chars : List Char) :
    Option (List Char × List Char) :=
  readInside read mark (chars.length + 1) chars

/-- The reader reads back what is written character by character, and none of it looks like the
mark. -/
structure Inverts (read : CharReader) (mark : Char) (write : Char → List Char) : Prop where
  begins : ∀ c, ∃ d rest, write c = d :: rest ∧ d ≠ mark
  reads : ∀ c rest, read (write c ++ rest) = some (c, rest)

variable {read : CharReader} {mark : Char} {write : Char → List Char} {s s' rest rest' : List Char}

/-- With enough fuel a text is read back as far as the mark. -/
theorem Inverts.readInside_eq (h : Inverts read mark write) {fuel : Nat} (hfuel : s.length < fuel) :
    readInside read mark fuel (s.flatMap write ++ mark :: rest) = some (s, rest) := by
  induction s generalizing fuel with
  | nil =>
    obtain ⟨fuel, rfl⟩ := Nat.exists_eq_succ_of_ne_zero (Nat.ne_zero_of_lt hfuel)
    simp [readInside]
  | cons c s ih =>
    obtain ⟨fuel, rfl⟩ := Nat.exists_eq_succ_of_ne_zero (Nat.ne_zero_of_lt hfuel)
    obtain ⟨d, ds, hwrite, hd⟩ := h.begins c
    have hread := h.reads c (s.flatMap write ++ mark :: rest)
    have hrest := ih (Nat.lt_of_succ_lt_succ hfuel)
    rw [List.flatMap_cons, List.append_assoc]
    rw [hwrite, List.cons_append] at hread ⊢
    simp [readInside, hd, hread, hrest]

/-- A text has at least one character for each that is written. -/
theorem Inverts.length_le (h : Inverts read mark write) (s : List Char) :
    s.length ≤ (s.flatMap write).length := by
  induction s with
  | nil => exact Nat.le_refl 0
  | cons c s ih =>
    obtain ⟨d, ds, hwrite, -⟩ := h.begins c
    rw [List.flatMap_cons, hwrite]
    simp only [List.length_append, List.length_cons]
    omega

/-- A text is read back as far as the mark. -/
theorem Inverts.inside_eq (h : Inverts read mark write) (s rest : List Char) :
    inside read mark (s.flatMap write ++ mark :: rest) = some (s, rest) := by
  have hle := h.length_le s
  refine h.readInside_eq ?_
  simp only [List.length_append, List.length_cons]
  omega

/-! ## Hexadecimal numbers -/

/-- A digit below sixteen has the value that it was written for. -/
theorem hexValue?_digitChar : ∀ n < 16, Pattern.hexValue? n.digitChar = some n := by decide

/-- The digits of a number are those of numbers below sixteen. -/
theorem exists_of_mem_toDigits {n : ℕ} {c : Char} (h : c ∈ Nat.toDigits 16 n) :
    ∃ d < 16, c = d.digitChar := by
  induction n using Nat.strongRecOn with
  | ind n ih =>
    by_cases hn : n < 16
    · rw [Nat.toDigits_of_lt_base hn, List.mem_singleton] at h
      exact ⟨n, hn, h⟩
    · rw [Nat.toDigits_of_base_le (by decide) (Nat.le_of_not_lt hn), List.mem_append,
        List.mem_singleton] at h
      rcases h with h | rfl
      · exact ih (n / 16) (Nat.div_lt_self (by omega) (by decide)) h
      · exact ⟨n % 16, Nat.mod_lt n (by decide), rfl⟩

/-- The digits of a number are read back, behind any number of zeros. -/
theorem hexNumber?_toDigits (zeros n : ℕ) :
    Pattern.hexNumber? (List.replicate zeros '0' ++ Nat.toDigits 16 n) = some n := by
  have hzeros : (List.replicate zeros '0').foldlM
      (fun n d => (Pattern.hexValue? d).map fun v => n * 16 + v) 0 = some 0 := by
    induction zeros with
    | zero => rfl
    | succ zeros ih =>
      rw [List.replicate_succ, List.foldlM_cons]
      exact ih
  have hdigits : (Nat.toDigits 16 n).foldlM
      (fun n d => (Pattern.hexValue? d).map fun v => n * 16 + v) 0 = some n := by
    induction n using Nat.strongRecOn with
    | ind n ih =>
      by_cases hn : n < 16
      · simp [Nat.toDigits_of_lt_base hn, hexValue?_digitChar n hn]
      · have hfront := ih (n / 16) (Nat.div_lt_self (by omega) (by decide))
        have hlast := hexValue?_digitChar (n % 16) (Nat.mod_lt n (by decide))
        rw [Nat.toDigits_of_base_le (by decide) (Nat.le_of_not_lt hn), List.foldlM_append, hfront]
        simp [hlast, Nat.div_add_mod']
  have hne : (List.replicate zeros '0' ++ Nat.toDigits 16 n).isEmpty = false := by
    simp [Nat.toDigits_ne_nil]
  rw [Pattern.hexNumber?, hne, if_neg Bool.false_ne_true, List.foldlM_append, hzeros]
  exact hdigits

/-- The code of a character is that of a character. -/
theorem charOfCode?_toNat (c : Char) : Pattern.charOfCode? c.toNat = some c := by
  have hvalid : c.toNat < 0xD800 ∨ 0xDFFF < c.toNat ∧ c.toNat < 0x110000 := c.valid
  have hcode : c.toNat < 0xD800 ∨ 0xDFFF < c.toNat ∧ c.toNat ≤ maxCode := by
    unfold maxCode
    omega
  rw [Pattern.charOfCode?, if_pos hcode, Char.ofNat_toNat]

end Escaping

open Escaping

namespace Quoted

/-- One character of quoted text. -/
def readChar : CharReader
  | '\\' :: 'u' :: '\x7b' :: rest => do
    let code ← Pattern.hexNumber? (rest.takeWhile (· != '\x7d'))
    let c ← Pattern.charOfCode? code
    return (c, (rest.dropWhile (· != '\x7d')).tail)
  | '\\' :: '0' :: rest => some ('\x00', rest)
  | '\\' :: 't' :: rest => some ('\t', rest)
  | '\\' :: 'r' :: rest => some ('\r', rest)
  | '\\' :: 'n' :: rest => some ('\n', rest)
  | '\\' :: c :: rest => some (c, rest)
  | c :: rest => some (c, rest)
  | [] => none

/-- A code in braces is read back. -/
theorem readChar_codeEscape (c : Char) (rest : List Char) :
    readChar (codeEscape c ++ rest) = some (c, rest) := by
  have hdigits : ∀ d ∈ Nat.toDigits 16 c.toNat, (d != '\x7d') = true := by
    intro d hd
    have hall : ∀ n < 16, (n.digitChar != '\x7d') = true := by decide
    obtain ⟨n, hn, rfl⟩ := exists_of_mem_toDigits hd
    exact hall n hn
  have hcode : Pattern.hexNumber? (Nat.toDigits 16 c.toNat) = some c.toNat :=
    hexNumber?_toDigits 0 c.toNat
  simp only [codeEscape, List.append_assoc, List.cons_append, List.nil_append, readChar,
    List.takeWhile_append_of_pos hdigits, List.dropWhile_append_of_pos hdigits]
  simp [hcode, charOfCode?_toNat]

/-- Between quotes, single or double, every character is read back. -/
theorem inverts_readChar {mark : Char} (hmark : mark = '"' ∨ mark = '\x27') :
    Inverts readChar mark (escape mark) where
  begins c := by
    have hslash : '\\' ≠ mark := by rcases hmark with rfl | rfl <;> decide
    unfold escape codeEscape
    split_ifs with h₁ h₂ h₃ h₄ h₅ h₆
    · exact ⟨_, _, rfl, hslash⟩
    · exact ⟨_, _, rfl, hslash⟩
    · exact ⟨_, _, rfl, hslash⟩
    · exact ⟨_, _, rfl, hslash⟩
    · exact ⟨_, _, rfl, hslash⟩
    · exact ⟨_, _, rfl, fun hc => h₅ (.inr hc)⟩
    · exact ⟨_, _, rfl, hslash⟩
  reads c rest := by
    unfold escape
    split_ifs with h₁ h₂ h₃ h₄ h₅ h₆
    · rw [h₁]; rfl
    · rw [h₂]; rfl
    · rw [h₃]; rfl
    · rw [h₄]; rfl
    · rcases h₅ with rfl | rfl
      · rfl
      · rcases hmark with rfl | rfl <;> rfl
    · have hc : c ≠ '\\' := fun hc => h₅ (.inl hc)
      simp [readChar, hc]
    · exact readChar_codeEscape c rest

/-- The inside of text in double quotes is read back. -/
theorem inside_text (s rest : List Char) :
    inside readChar '"' (s.flatMap (escape '"') ++ '"' :: rest) = some (s, rest) :=
  (inverts_readChar (.inl rfl)).inside_eq s rest

end Quoted

namespace JsonText

/-- The character of which the four digits of an escape write the code. A character beyond the first
plane takes two escapes, one for each half of its code. -/
def readCode (chars : List Char) : Option (Char × List Char) := do
  let high ← Pattern.hexNumber? (chars.take 4)
  match Pattern.charOfCode? high, chars.drop 4 with
  | some c, rest => return (c, rest)
  | none, '\\' :: 'u' :: rest =>
    let low ← Pattern.hexNumber? (rest.take 4)
    if high < 0xDC00 ∧ 0xDC00 ≤ low ∧ low ≤ 0xDFFF then
      return (Char.ofNat (0x10000 + (high - 0xD800) * 0x400 + (low - 0xDC00)), rest.drop 4)
    else none
  | none, _ => none

/-- One character of a string. -/
def readChar : CharReader
  | '\\' :: 'u' :: rest => readCode rest
  | '\\' :: 'b' :: rest => some ('\x08', rest)
  | '\\' :: 'f' :: rest => some ('\x0c', rest)
  | '\\' :: 'n' :: rest => some ('\n', rest)
  | '\\' :: 'r' :: rest => some ('\r', rest)
  | '\\' :: 't' :: rest => some ('\t', rest)
  | '\\' :: c :: rest => if c ∈ ['"', '\\', '/'] then some (c, rest) else none
  | c :: rest => some (c, rest)
  | [] => none

/-- The code of a control character takes four digits. -/
theorem length_fourDigits : ∀ n < 0x20, (fourDigits n).length = 4 := by decide

/-- Four digits are read back. -/
theorem readCode_fourDigits {c : Char} (hc : c.toNat < 0x20) (rest : List Char) :
    readCode (fourDigits c.toNat ++ rest) = some (c, rest) := by
  have hlength := length_fourDigits c.toNat hc
  have hcode : Pattern.hexNumber? (fourDigits c.toNat) = some c.toNat :=
    hexNumber?_toDigits _ c.toNat
  have htake : (fourDigits c.toNat ++ rest).take 4 = fourDigits c.toNat := by
    rw [← hlength, List.take_left']
    rfl
  have hdrop : (fourDigits c.toNat ++ rest).drop 4 = rest := by
    rw [← hlength, List.drop_left']
    rfl
  simp [readCode, htake, hdrop, hcode, charOfCode?_toNat]

/-- Every character of a string is read back. -/
theorem inverts_readChar : Inverts readChar '"' escape where
  begins c := by
    unfold escape
    split_ifs with h₁ h₂ h₃ h₄ h₅ h₆ h₇
    · exact ⟨_, _, rfl, by decide⟩
    · exact ⟨_, _, rfl, by decide⟩
    · exact ⟨_, _, rfl, by decide⟩
    · exact ⟨_, _, rfl, by decide⟩
    · exact ⟨_, _, rfl, by decide⟩
    · exact ⟨_, _, rfl, by decide⟩
    · exact ⟨_, _, rfl, by decide⟩
    · exact ⟨_, _, rfl, fun hc => h₁ (.inl hc)⟩
  reads c rest := by
    unfold escape
    split_ifs with h₁ h₂ h₃ h₄ h₅ h₆ h₇
    · rcases h₁ with rfl | rfl <;> rfl
    · rw [h₂]; rfl
    · rw [h₃]; rfl
    · rw [h₄]; rfl
    · rw [h₅]; rfl
    · rw [h₆]; rfl
    · exact readCode_fourDigits h₇ rest
    · have hc : c ≠ '\\' := fun hc => h₁ (.inr hc)
      simp [readChar, hc]

/-- The inside of a string is read back. -/
theorem inside_string (s rest : List Char) :
    inside readChar '"' (s.flatMap escape ++ '"' :: rest) = some (s, rest) :=
  inverts_readChar.inside_eq s rest

end JsonText

end Descent
