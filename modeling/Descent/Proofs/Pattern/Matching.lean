import Descent.Pattern.Engine
import Descent.Proofs.Pattern.Places
import Mathlib.Data.Nat.Notation

/-!
# What a pattern matches

What it means that a pattern matches from one place to another is said here without any order or
preference: a sequence matches where a place between is found, a choice where either side does, and a
repetition where as many rounds as are allowed lead. An engine is expected to report matches only, and
to miss none that begins before the one it reports (`Engine.FindsMatches`).
-/

namespace Descent.Pattern

variable {related related' : Cursor → Cursor → Prop} {n m : ℕ} {c d e : Cursor}

/-- A relation between places a number of times in a row. -/
def Rounds (related : Cursor → Cursor → Prop) : ℕ → Cursor → Cursor → Prop
  | 0, c, e => e = c
  | n + 1, c, e => ∃ d, related c d ∧ Rounds related n d e

theorem rounds_add :
    Rounds related (n + m) c e ↔ ∃ d, Rounds related n c d ∧ Rounds related m d e := by
  induction n generalizing c with
  | zero => simp [Rounds]
  | succ n ih =>
    rw [Nat.succ_add]
    simp only [Rounds, ih]
    constructor
    · rintro ⟨d, hd, d', hd', he⟩
      exact ⟨d', ⟨d, hd, hd'⟩, he⟩
    · rintro ⟨d', ⟨d, hd, hd'⟩, he⟩
      exact ⟨d, hd, d', hd', he⟩

/-- The last round apart. -/
theorem rounds_succ : Rounds related (n + 1) c e ↔ ∃ d, Rounds related n c d ∧ related d e := by
  rw [rounds_add]
  simp [Rounds]

/-- Any number of rounds: none, or a first one and then any number. -/
theorem exists_rounds_iff : (∃ n, Rounds related n c e) ↔
    e = c ∨ ∃ d, related c d ∧ ∃ n, Rounds related n d e := by
  constructor
  · rintro ⟨_ | n, hrounds⟩
    · exact .inl hrounds
    · obtain ⟨d, hd, hrounds⟩ := hrounds
      exact .inr ⟨d, hd, n, hrounds⟩
  · rintro (rfl | ⟨d, hd, n, hrounds⟩)
    · exact ⟨0, rfl⟩
    · exact ⟨n + 1, d, hd, hrounds⟩

/-- What relates the same places leads to the same places. -/
theorem rounds_congr (h : ∀ c e, related c e ↔ related' c e) : Rounds related = Rounds related' := by
  have hsame : related = related' := by
    funext c e
    exact propext (h c e)
  rw [hsame]

/-- What leads to places after the given one does so in any number of rounds. -/
theorem ahead_of_rounds (h : ∀ c e, related c e → c.Ahead e) (hrounds : Rounds related n c e) :
    c.Ahead e := by
  induction n generalizing c with
  | zero => exact hrounds ▸ .here c
  | succ n ih =>
    obtain ⟨d, hd, he⟩ := hrounds
    exact (h c d hd).trans (ih he)

/-- In so many rounds, each at least this wide, a search goes at least so far. -/
theorem rounds_offset_ge {width : ℕ} (h : ∀ c e, related c e → c.offset + width ≤ e.offset)
    (hrounds : Rounds related n c e) : c.offset + n * width ≤ e.offset := by
  induction n generalizing c with
  | zero => simp [show e = c from hrounds]
  | succ n ih =>
    obtain ⟨d, hd, he⟩ := hrounds
    have hfirst := h c d hd
    have hrest := ih he
    rw [Nat.succ_mul]
    omega

/-- The numbers of rounds that a repetition may make. If the greatest is below the least, the least
counts. -/
def Allowed (least : ℕ) (most : Option ℕ) (n : ℕ) : Prop :=
  least ≤ n ∧ ∀ m ∈ most, n ≤ max least m

/-- As many rounds as must be made, and then as many more as may be made. -/
theorem allowed_iff {least most : ℕ} : (∃ n, Allowed least (some most) n ∧ Rounds related n c e) ↔
    ∃ d, Rounds related least c d ∧ ∃ n ≤ most - least, Rounds related n d e := by
  constructor
  · rintro ⟨n, ⟨hleast, hmost⟩, hrounds⟩
    have hle := hmost most rfl
    obtain ⟨more, rfl⟩ := Nat.exists_eq_add_of_le hleast
    obtain ⟨d, hd, he⟩ := rounds_add.1 hrounds
    exact ⟨d, hd, more, by omega, he⟩
  · rintro ⟨d, hd, n, hn, he⟩
    refine ⟨least + n, ⟨Nat.le_add_right least n, ?_⟩, rounds_add.2 ⟨d, hd, he⟩⟩
    rintro _ ⟨⟩
    omega

/-- Without a greatest number of rounds, as many more as wanted. -/
theorem allowed_none_iff {least : ℕ} : (∃ n, Allowed least none n ∧ Rounds related n c e) ↔
    ∃ d, Rounds related least c d ∧ ∃ n, Rounds related n d e := by
  constructor
  · rintro ⟨n, ⟨hleast, -⟩, hrounds⟩
    obtain ⟨more, rfl⟩ := Nat.exists_eq_add_of_le hleast
    obtain ⟨d, hd, he⟩ := rounds_add.1 hrounds
    exact ⟨d, hd, more, he⟩
  · rintro ⟨d, hd, n, he⟩
    exact ⟨least + n, ⟨Nat.le_add_right least n, nofun⟩, rounds_add.2 ⟨d, hd, he⟩⟩

namespace Node

/-- The pattern matches from one place to another. -/
def Matches : Node → Cursor → Cursor → Prop
  | empty, c, e => e = c
  | set s, c, e => c.takeIn s = some e
  | look l, c, e => l.holds c = true ∧ e = c
  | seq a b, c, e => ∃ d, a.Matches c d ∧ b.Matches d e
  | alt a b, c, e => a.Matches c e ∨ b.Matches c e
  | loop least most _ body, c, e => ∃ n, Allowed least most n ∧ Rounds body.Matches n c e

/-- The first `n` characters of the text match the pattern, with the rest of the text in view. -/
def MatchesFirst (node : Node) (chars : List Char) (n : ℕ) : Prop :=
  ∃ e, node.Matches (.start chars) e ∧ e.offset = n

/-- A match ends after the place where it begins. -/
theorem Matches.ahead {node : Node} (h : node.Matches c e) : c.Ahead e := by
  induction node generalizing c e with
  | empty => exact (show e = c from h) ▸ .here c
  | set s => exact (Cursor.takeIn_eq_some h).1
  | look l => exact h.2 ▸ .here c
  | seq a b iha ihb =>
    obtain ⟨d, hd, he⟩ := h
    exact (iha hd).trans (ihb he)
  | alt a b iha ihb => exact h.elim iha ihb
  | loop least most greedy body ih =>
    obtain ⟨n, -, hrounds⟩ := h
    exact ahead_of_rounds (fun _ _ => ih) hrounds

/-- A match takes at least as many characters as its pattern must. -/
theorem minWidth_le {node : Node} (h : node.Matches c e) :
    c.offset + node.minWidth ≤ e.offset := by
  induction node generalizing c e with
  | empty => exact (show e = c from h) ▸ Nat.le_refl _
  | set s => exact Nat.le_of_eq (Cursor.takeIn_eq_some h).2.symm
  | look l => exact h.2 ▸ Nat.le_refl _
  | seq a b iha ihb =>
    obtain ⟨d, hd, he⟩ := h
    have hfirst := iha hd
    have hsecond := ihb he
    rw [minWidth]
    omega
  | alt a b iha ihb =>
    rw [minWidth]
    rcases h with h | h
    · have hwidth := iha h
      omega
    · have hwidth := ihb h
      omega
  | loop least most greedy body ih =>
    obtain ⟨n, ⟨hleast, -⟩, hrounds⟩ := h
    have hwidth := rounds_offset_ge (fun c e => ih) hrounds
    have hmul := Nat.mul_le_mul_right body.minWidth hleast
    rw [minWidth]
    omega

/-- A match at the front of a text is no longer than the text. -/
theorem MatchesFirst.le_length {node : Node} {chars : List Char} (h : node.MatchesFirst chars n) :
    n ≤ chars.length := by
  obtain ⟨e, he, rfl⟩ := h
  simpa [Cursor.start] using he.ahead.offset_le_end

end Node

/-- The engine reports matches only, and no match begins before the one that it reports. -/
structure Engine.FindsMatches (engine : Engine) : Prop where
  sound : ∀ {source node find chars first last}, engine.compile? source node = some find →
    find chars = some (first, last) → ∃ c e, (Cursor.start chars).Ahead c ∧ node.Matches c e ∧
      c.offset = first ∧ e.offset = last
  leftmost : ∀ {source node find chars c e}, engine.compile? source node = some find →
    (Cursor.start chars).Ahead c → node.Matches c e →
      ∃ first last, find chars = some (first, last) ∧ first ≤ c.offset

end Descent.Pattern
