import Descent.Pattern.Node

/-!
# Places in a text

From a place a search goes on to places after it in the same text, and these are told by their offsets
alone (`Cursor.Ahead.eq_of_offset`). So nothing is lost when of the places with one offset only the
first is kept (`Cursor.mem_distinct`), and nothing that is looked for among them is found elsewhere
(`Cursor.findSome?_distinct`).
-/

namespace Descent.Pattern

namespace Cursor

/-- The second place is the first, or stands after it in the same text. -/
inductive Ahead : Cursor → Cursor → Prop
  | here (c : Cursor) : Ahead c c
  | next {before x rest offset e} (h : Ahead ⟨some x, rest, offset + 1⟩ e) :
    Ahead ⟨before, x :: rest, offset⟩ e

variable {c d e : Cursor} {cs : List Cursor}

namespace Ahead

theorem trans (h : c.Ahead d) (h' : d.Ahead e) : c.Ahead e := by
  induction h with
  | here => exact h'
  | next _ ih => exact .next (ih h')

/-- What stands between the two places. -/
theorem exists_between (h : c.Ahead e) :
    ∃ between, c.rest = between ++ e.rest ∧ e.offset = c.offset + between.length := by
  induction h with
  | here => exact ⟨[], rfl, rfl⟩
  | @next before x rest offset e _ ih =>
    obtain ⟨between, hrest, hoffset⟩ := ih
    refine ⟨x :: between, by simpa using hrest, ?_⟩
    simp only [List.length_cons] at hoffset ⊢
    omega

theorem offset_le (h : c.Ahead e) : c.offset ≤ e.offset := by
  obtain ⟨between, -, hoffset⟩ := h.exists_between
  omega

/-- No place stands after the end. -/
theorem offset_le_end (h : c.Ahead e) : e.offset ≤ c.offset + c.rest.length := by
  obtain ⟨between, hrest, hoffset⟩ := h.exists_between
  rw [hrest, List.length_append]
  omega

/-- Places after the same one are told by their offsets. -/
theorem eq_of_offset (hd : c.Ahead d) (he : c.Ahead e) (h : d.offset = e.offset) : d = e := by
  induction hd with
  | here c =>
    cases he with
    | here => rfl
    | next he =>
      have hle := he.offset_le
      simp only at h hle
      omega
  | next hd ih =>
    cases he with
    | here =>
      have hle := hd.offset_le
      simp only at h hle
      omega
    | next he => exact ih he h

/-- Where a character stands before a place, one stands before the places after it. -/
theorem before_isSome (h : c.Ahead e) (hc : c.before.isSome) : e.before.isSome := by
  induction h with
  | here => exact hc
  | next _ ih => exact ih rfl

/-- The second place is the first, or a character stands before it. -/
theorem eq_or_before_isSome (h : c.Ahead e) : e = c ∨ e.before.isSome := by
  cases h with
  | here => exact .inl rfl
  | next h => exact .inr (h.before_isSome rfl)

/-- The second place is the first, or fewer characters follow it. -/
theorem eq_or_length_lt (h : c.Ahead e) : e = c ∨ e.rest.length < c.rest.length := by
  obtain ⟨between, hrest, hoffset⟩ := h.exists_between
  cases between with
  | nil => exact .inl (h.eq_of_offset (.here c) hoffset)
  | cons x between =>
    refine .inr ?_
    rw [hrest, List.length_append, List.length_cons]
    omega

end Ahead

/-- The place after the next character is the next place. -/
theorem takeIn_eq_some {s : CharSet} (h : c.takeIn s = some e) :
    c.Ahead e ∧ e.offset = c.offset + 1 := by
  obtain ⟨before, rest, offset⟩ := c
  cases rest with
  | nil => cases h
  | cons x rest =>
    simp only [takeIn] at h
    split at h
    · cases h
      exact ⟨.next (.here _), rfl⟩
    · cases h

/-! ## Places without repetitions -/

/-- No two of the places have the same offset. -/
def Apart (cs : List Cursor) : Prop := cs.Pairwise fun d e => d.offset ≠ e.offset

/-- The places without repetitions, each at its first turn. -/
def distinct : List Cursor → List Cursor
  | [] => []
  | c :: cs => c :: (distinct cs).filter (·.offset ≠ c.offset)

theorem distinct_sublist (cs : List Cursor) : (distinct cs).Sublist cs := by
  induction cs with
  | nil => exact .slnil
  | cons c cs ih => exact (List.filter_sublist.trans ih).cons_cons c

theorem apart_distinct (cs : List Cursor) : Apart (distinct cs) := by
  induction cs with
  | nil => exact .nil
  | cons c cs ih =>
    refine .cons (fun e he => ?_) (ih.sublist List.filter_sublist)
    have hne : e.offset ≠ c.offset := by simpa using (List.mem_filter.1 he).2
    exact hne.symm

/-- Leaving out repetitions leaves the first place. -/
theorem head?_distinct (cs : List Cursor) : (distinct cs).head? = cs.head? := by
  cases cs <;> rfl

/-- Of places that are told by their offsets, none is lost. -/
theorem mem_distinct (h : ∀ e ∈ cs, c.Ahead e) : e ∈ distinct cs ↔ e ∈ cs := by
  refine ⟨fun he => (distinct_sublist cs).subset he, fun he => ?_⟩
  induction cs with
  | nil => cases he
  | cons d cs ih =>
    obtain ⟨hd, hcs⟩ := List.forall_mem_cons.1 h
    by_cases hoffset : e.offset = d.offset
    · rw [(h e he).eq_of_offset hd hoffset]
      exact List.mem_cons_self
    · have hmem : e ∈ cs := (List.mem_cons.1 he).resolve_left fun heq => hoffset (heq ▸ rfl)
      exact List.mem_cons_of_mem _ (List.mem_filter.2 ⟨ih hcs hmem, by simpa using hoffset⟩)

/-- Leaving out places where nothing is found leaves what is found first. -/
theorem findSome?_filter {β : Type} {k : Cursor → Option β} {keep : Cursor → Bool}
    (h : ∀ e ∈ cs, keep e = false → k e = none) : (cs.filter keep).findSome? k = cs.findSome? k := by
  induction cs with
  | nil => rfl
  | cons d cs ih =>
    obtain ⟨hd, hcs⟩ := List.forall_mem_cons.1 h
    cases hkeep : keep d with
    | true => rw [List.filter_cons_of_pos hkeep, List.findSome?_cons, List.findSome?_cons, ih hcs]
    | false =>
      rw [List.filter_cons_of_neg (by simp [hkeep]), List.findSome?_cons, hd hkeep, ih hcs]

/-- What is found first among places is found first among them without repetitions. -/
theorem findSome?_distinct {β : Type} (k : Cursor → Option β) (h : ∀ e ∈ cs, c.Ahead e) :
    (distinct cs).findSome? k = cs.findSome? k := by
  induction cs with
  | nil => rfl
  | cons d cs ih =>
    obtain ⟨hd, hcs⟩ := List.forall_mem_cons.1 h
    rw [distinct, List.findSome?_cons, List.findSome?_cons]
    cases hk : k d with
    | some b => rfl
    | none =>
      rw [← ih hcs]
      refine findSome?_filter fun e he hsame => ?_
      have hahead := hcs e ((distinct_sublist cs).subset he)
      rw [hahead.eq_of_offset hd (by simpa using hsame), hk]

end Cursor

end Descent.Pattern
