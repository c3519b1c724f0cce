import Descent.Text.Quoted
import Mathlib.Data.List.Sort

/-!
# Characters that show

A set of characters is kept as ranges in increasing order, and is made from ranges in any order by
sorting and joining them. This loses nothing (`CharSet.contains_ofRanges`), so what one finds in a
table of characters is in every set made of the table. The control characters are found in the table
of categories; so none of them shows in quoted text (`Quoted.not_isControl_of_shows`).
-/

namespace Descent

namespace CharSet

/-- One of the ranges holds the code point. -/
def Holds (ranges : List CodeRange) (code : Nat) : Prop := ∃ r ∈ ranges, r.contains code = true

/-- Ranges in order of their first code points. -/
def Ordered (ranges : List CodeRange) : Prop := ranges.Pairwise fun a b => a.first ≤ b.first

variable {r : CodeRange} {ranges : List CodeRange} {code : Nat}

@[simp] theorem not_holds_nil : ¬Holds [] code := by simp [Holds]

@[simp] theorem holds_cons : Holds (r :: ranges) code ↔
    (r.first ≤ code ∧ code ≤ r.last) ∨ Holds ranges code := by
  simp [Holds, CodeRange.contains]

/-- Ranges behind a code point do not hold it. -/
theorem not_holds_of_lt (h : ∀ r ∈ ranges, code < r.first) : ¬Holds ranges code := by
  rintro ⟨r, hr, hcontains⟩
  have hlt := h r hr
  simp only [CodeRange.contains, Bool.and_eq_true, decide_eq_true_eq] at hcontains
  omega

/-- A code point that is found is held by one of the ranges. -/
theorem holds_of_memberOf (h : memberOf ranges code = true) : Holds ranges code := by
  induction ranges with
  | nil => cases h
  | cons r rest ih =>
    rw [memberOf] at h
    rw [holds_cons]
    split at h
    · cases h
    · rcases Bool.or_eq_true_iff.1 h with hlast | hrest
      · exact .inl ⟨by omega, of_decide_eq_true hlast⟩
      · exact .inr (ih hrest)

/-- In ranges that stand in order a code point is found wherever it is. -/
theorem memberOf_iff (h : Ordered ranges) : memberOf ranges code = true ↔ Holds ranges code := by
  refine ⟨holds_of_memberOf, fun hholds => ?_⟩
  induction ranges with
  | nil => exact absurd hholds not_holds_nil
  | cons r rest ih =>
    obtain ⟨hfirst, hrest⟩ := List.pairwise_cons.1 h
    rw [memberOf]
    rcases holds_cons.1 hholds with ⟨hle, hlast⟩ | hholds
    · rw [if_neg (Nat.not_lt.2 hle), decide_eq_true hlast, Bool.true_or]
    · have hcode : ¬code < r.first := fun hlt =>
        not_holds_of_lt (fun r' hr' => Nat.lt_of_lt_of_le hlt (hfirst r' hr')) hholds
      rw [if_neg hcode, ih hrest hholds, Bool.or_true]

/-- The first of the joined ranges begins where the first of all begins. -/
theorem exists_joined_cons (r : CodeRange) (rest : List CodeRange) :
    ∃ r' rest', joined (r :: rest) = r' :: rest' ∧ r'.first = r.first := by
  rw [joined]
  split
  · exact ⟨_, _, rfl, rfl⟩
  · split
    · exact ⟨_, _, rfl, rfl⟩
    · exact ⟨_, _, rfl, rfl⟩

/-- Joining ranges that stand in order leaves them in order, and keeps all code points. -/
theorem joined_spec (h : Ordered ranges) :
    Ordered (joined ranges) ∧ (Holds (joined ranges) code ↔ Holds ranges code) := by
  induction ranges with
  | nil => simp [joined, Ordered]
  | cons r rest ih =>
    obtain ⟨hfirst, hrest⟩ := List.pairwise_cons.1 h
    obtain ⟨hordered, hsame⟩ := ih hrest
    rw [holds_cons, ← hsame]
    cases rest with
    | nil => simp [joined, Ordered]
    | cons r₂ rest =>
      obtain ⟨next, others, hjoined, hnext⟩ := exists_joined_cons r₂ rest
      have hle : r.first ≤ next.first := hnext ▸ hfirst r₂ List.mem_cons_self
      rw [joined, hjoined]
      rw [hjoined] at hordered
      obtain ⟨hnextFirst, hothers⟩ := List.pairwise_cons.1 hordered
      dsimp only
      split
      · -- The two ranges touch, and become one.
        refine ⟨List.pairwise_cons.2 ⟨fun r' hr' => hle.trans (hnextFirst r' hr'), hothers⟩, ?_⟩
        rw [holds_cons, holds_cons, ← or_assoc]
        refine or_congr_left ?_
        dsimp only
        omega
      · refine ⟨List.pairwise_cons.2 ⟨fun r' hr' => ?_, hordered⟩, holds_cons⟩
        rcases List.mem_cons.1 hr' with rfl | hr'
        · exact hle
        · exact hle.trans (hnextFirst r' hr')

/-- Sorting puts ranges in order. -/
theorem ordered_mergeSort (ranges : List CodeRange) :
    Ordered (ranges.mergeSort fun a b => a.first ≤ b.first) := by
  have htrans : ∀ a b c : CodeRange, decide (a.first ≤ b.first) = true →
      decide (b.first ≤ c.first) = true → decide (a.first ≤ c.first) = true := by
    simp only [decide_eq_true_eq]
    omega
  have htotal : ∀ a b : CodeRange,
      (decide (a.first ≤ b.first) || decide (b.first ≤ a.first)) = true := by
    simp only [Bool.or_eq_true, decide_eq_true_eq]
    omega
  exact (List.pairwise_mergeSort htrans htotal ranges).imp of_decide_eq_true

/-- The ranges of a set made of ranges hold what those hold. -/
theorem holds_ofRanges : Holds (ofRanges ranges).ranges code ↔ Holds ranges code := by
  rw [ofRanges, (joined_spec (ordered_mergeSort ranges)).2]
  simp only [Holds, List.mem_mergeSort]

/-- A set made of ranges holds the characters of all of them. -/
theorem contains_ofRanges {c : Char} :
    (ofRanges ranges).contains c = true ↔ Holds ranges c.toNat := by
  have hordered : Ordered (ofRanges ranges).ranges :=
    (joined_spec (ordered_mergeSort ranges) : _ ∧ (Holds _ c.toNat ↔ _)).1
  rw [contains, memberOf_iff hordered]
  exact holds_ofRanges

end CharSet

namespace Unicode

/-- A table can be read in two parts. -/
theorem namedLengths_append (width : Nat) (front back : List String) :
    namedLengths width (front ++ back) = namedLengths width front ++ namedLengths width back := by
  simp only [namedLengths, words, List.flatMap_append]

/-- The stretches of the first part of a table are among all. -/
theorem mem_stretchesFrom_append {start : Nat} {front back : List (String × Nat)} {s : Stretch}
    (h : s ∈ stretchesFrom start front) : s ∈ stretchesFrom start (front ++ back) := by
  induction front generalizing start with
  | nil => cases h
  | cons named front ih =>
    rw [List.cons_append, stretchesFrom]
    rcases List.mem_cons.1 h with rfl | h
    · exact List.mem_cons_self
    · exact List.mem_cons_of_mem _ (ih h)

/-- Two stretches of the table of categories are those of control characters. -/
theorem mem_categoryStretches {range : CodeRange} (h : range = ⟨0, 31⟩ ∨ range = ⟨127, 159⟩) :
    ⟨"Cc", range⟩ ∈ categoryStretches := by
  have hfront : ((stretchesFrom 0 (namedLengths 2 (categoryTable.take 2))).any fun s =>
      s.value == "Cc" && s.range == range) = true := by
    rcases h with rfl | rfl <;> decide +kernel
  obtain ⟨⟨value, range'⟩, hmem, hsame⟩ := List.any_eq_true.1 hfront
  obtain ⟨rfl, rfl⟩ : value = "Cc" ∧ range' = range := by simpa using hsame
  rw [categoryStretches, ← List.take_append_drop 2 categoryTable, namedLengths_append]
  exact mem_stretchesFrom_append hmem

end Unicode

namespace Quoted

/-- The control characters: the two stretches of codes that are set apart for them. -/
def IsControl (c : Char) : Prop := c.toNat < 0x20 ∨ 0x7F ≤ c.toNat ∧ c.toNat ≤ 0x9F

instance : DecidablePred IsControl := fun c => by
  unfold IsControl
  infer_instance

/-- Control characters do not show. -/
theorem hidden_of_isControl {c : Char} (h : IsControl c) : hidden.contains c = true := by
  obtain ⟨range, hrange, hcontains⟩ : ∃ range : CodeRange,
      (range = ⟨0, 31⟩ ∨ range = ⟨127, 159⟩) ∧ range.contains c.toNat = true := by
    rcases h with h | h
    · exact ⟨_, .inl rfl, by simp [CodeRange.contains]; omega⟩
    · exact ⟨_, .inr rfl, by simpa [CodeRange.contains] using h⟩
  have hmem := Unicode.mem_categoryStretches hrange
  have hblank : CharSet.Holds Unicode.blankOrUnassigned.ranges c.toNat := by
    refine CharSet.holds_ofRanges.2 ⟨range, ?_, hcontains⟩
    exact List.mem_map.2 ⟨_, List.mem_filter.2 ⟨hmem, rfl⟩, rfl⟩
  obtain ⟨r, hr, hcontains⟩ := hblank
  exact CharSet.contains_ofRanges.2 ⟨r, List.mem_append_left _ hr, hcontains⟩

/-- No character that shows is a control character, so that none stands for itself in
quoted text. -/
theorem not_isControl_of_shows {c : Char} (h : shows c = true) : ¬IsControl c := by
  intro hcontrol
  have hhidden := hidden_of_isControl hcontrol
  unfold shows at h
  split at h
  · cases h
  · split at h
    · rcases hcontrol with hlow | ⟨hhigh, -⟩
      · contradiction
      · omega
    · simp [hhidden] at h

end Quoted

end Descent
