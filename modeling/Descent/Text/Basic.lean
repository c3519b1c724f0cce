/-!
# Text measured in bytes

A parser works on the characters that are left to read, and reports sizes in UTF-8 bytes. `Text`
keeps the byte count beside the characters, so that asking for it costs nothing, and carries the
proof that the count is right.
-/

namespace Descent

/-- The number of bytes that the characters take in UTF-8. -/
def utf8Size : List Char → Nat
  | [] => 0
  | c :: chars => c.utf8Size + utf8Size chars

@[simp] theorem utf8Size_nil : utf8Size [] = 0 := rfl

@[simp] theorem utf8Size_cons (c : Char) (chars : List Char) :
    utf8Size (c :: chars) = c.utf8Size + utf8Size chars := rfl

@[simp] theorem utf8Size_append (front back : List Char) :
    utf8Size (front ++ back) = utf8Size front + utf8Size back := by
  induction front with
  | nil => simp
  | cons c front ih => simp [ih, Nat.add_assoc]

/-- Only the empty text takes no bytes. -/
theorem utf8Size_eq_zero_iff {chars : List Char} : utf8Size chars = 0 ↔ chars = [] := by
  cases chars with
  | nil => simp
  | cons c chars =>
    have hc : 0 < c.utf8Size := c.utf8Size_pos
    simp only [utf8Size_cons, reduceCtorEq, iff_false]
    omega

/-- Characters together with the number of bytes they take. -/
structure Text where
  /-- The characters, first to last. -/
  chars : List Char
  /-- The size of the characters in UTF-8 bytes. -/
  size : Nat
  /-- The size is the one the characters have. -/
  size_eq : size = utf8Size chars

namespace Text

/-- Two texts are equal as soon as their characters are. -/
@[ext] theorem ext {s t : Text} (h : s.chars = t.chars) : s = t := by
  cases s with
  | mk cs n hn =>
    cases t with
    | mk ds m hm =>
      simp only at h
      subst h
      simp [hn, hm]

instance : DecidableEq Text := fun s t =>
  if h : s.chars = t.chars then isTrue (ext h) else isFalse fun e => h (e ▸ rfl)

/-- The text with the given characters. -/
def ofList (chars : List Char) : Text := ⟨chars, utf8Size chars, rfl⟩

/-- The text of a string. -/
def ofString (s : String) : Text := ofList s.toList

instance : Inhabited Text := ⟨ofList []⟩

@[simp] theorem chars_ofList (chars : List Char) : (ofList chars).chars = chars := rfl

@[simp] theorem ofList_chars (t : Text) : ofList t.chars = t := ext rfl

/-- The text as a string. -/
def toString (t : Text) : String := String.ofList t.chars

/-- Whether nothing is left to read. -/
def isEmpty (t : Text) : Bool := t.size == 0

@[simp] theorem isEmpty_iff {t : Text} : t.isEmpty = true ↔ t.chars = [] := by
  simp [isEmpty, t.size_eq, utf8Size_eq_zero_iff]

/-- A text has the bytes of a front part and those of what follows. -/
theorem size_eq_add {t x : Text} {front : List Char} (h : t.chars = front ++ x.chars) :
    t.size = utf8Size front + x.size := by
  rw [t.size_eq, x.size_eq, h, utf8Size_append]

/-- An end part of a text is no longer than the text. -/
theorem size_le_of_suffix {t x : Text} (h : x.chars <:+ t.chars) : x.size ≤ t.size := by
  obtain ⟨front, hfront⟩ := h
  rw [size_eq_add hfront.symm]
  exact Nat.le_add_left _ _

/-- An end part that is as long as the text is the text. -/
theorem eq_of_suffix_of_size {t x : Text} (h : x.chars <:+ t.chars) (hsize : x.size = t.size) :
    x = t := by
  obtain ⟨front, hfront⟩ := h
  rw [size_eq_add hfront.symm] at hsize
  have hnil : front = [] := utf8Size_eq_zero_iff.1 (by omega)
  rw [hnil] at hfront
  exact ext hfront

/-- Of the empty text only the empty text is an end part. -/
theorem eq_of_suffix_of_empty {t x : Text} (h : x.chars <:+ t.chars) (ht : t.size = 0) : x = t :=
  eq_of_suffix_of_size h (by have hle := size_le_of_suffix h; omega)

/-- Every character takes a byte at least. -/
theorem length_chars_le (t : Text) : t.chars.length ≤ t.size := by
  rw [t.size_eq]
  induction t.chars with
  | nil => exact Nat.le_refl _
  | cons c chars ih =>
    have hc : 0 < c.utf8Size := c.utf8Size_pos
    rw [List.length_cons, utf8Size_cons]
    omega

/-- The first character and what follows it. -/
def uncons? : Text → Option (Char × Text)
  | ⟨[], _, _⟩ => none
  | ⟨c :: rest, size, h⟩ =>
    some (c, ⟨rest, size - c.utf8Size, by rw [h, utf8Size_cons]; omega⟩)

/-- Taking off the first character leaves the rest. -/
theorem uncons?_eq_some_iff {t rest : Text} {c : Char} :
    t.uncons? = some (c, rest) ↔ t.chars = c :: rest.chars := by
  cases t with
  | mk chars size h =>
    cases chars with
    | nil => simp [uncons?]
    | cons d chars =>
      simp only [uncons?, Option.some.injEq, Prod.mk.injEq, List.cons.injEq, Text.ext_iff]

theorem uncons?_eq_none_iff {t : Text} : t.uncons? = none ↔ t.chars = [] := by
  cases t with
  | mk chars size h => cases chars <;> simp [uncons?]

/-- The text without its first `n` characters. -/
def drop : Nat → Text → Text
  | 0, t => t
  | n + 1, t =>
    match t.uncons? with
    | some (_, rest) => rest.drop n
    | none => t

@[simp] theorem chars_drop (n : Nat) (t : Text) : (t.drop n).chars = t.chars.drop n := by
  induction n generalizing t with
  | zero => rfl
  | succ n ih =>
    cases h : t.uncons? with
    | none => simp [drop, h, uncons?_eq_none_iff.1 h]
    | some pair =>
      obtain ⟨c, rest⟩ := pair
      simp [drop, h, uncons?_eq_some_iff.1 h, ih]

/-- What follows `lead`, if the text starts with it. -/
def after? : List Char → Text → Option Text
  | [], t => some t
  | e :: lead, t =>
    match t.uncons? with
    | some (c, rest) => if c = e then rest.after? lead else none
    | none => none

/-- The text starts with `lead` exactly when it is `lead` and what was found to follow. -/
theorem after?_eq_some_iff {lead : List Char} {t rest : Text} :
    t.after? lead = some rest ↔ t.chars = lead ++ rest.chars := by
  induction lead generalizing t with
  | nil => simp [after?, Text.ext_iff]
  | cons e lead ih =>
    cases h : t.uncons? with
    | none => simp [after?, h, uncons?_eq_none_iff.1 h]
    | some pair =>
      obtain ⟨c, after⟩ := pair
      have ht := uncons?_eq_some_iff.1 h
      by_cases hc : c = e <;> simp [after?, h, ht, hc, ih]

end Text

end Descent
