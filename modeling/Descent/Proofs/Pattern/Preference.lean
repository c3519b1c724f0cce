import Descent.Proofs.Pattern.Matching
import Mathlib.Data.List.Basic

/-!
# Which match is preferred

Of the matches that begin at one place a pattern prefers one. `Node.ends` lists the places where they
end, the preferred one first: the first alternative comes before the second, one more round before
stopping if the repetition is greedy, and after stopping if it is lazy. A place is listed once, at its
first turn. The list has all ends (`Node.mem_ends_iff`). An engine may report the first of them
(`Engine.PrefersFirst`). Where a repetition without a greatest count can go round without taking
anything, engines differ in their order; a pattern is settled if none can (`Node.settled`).
-/

namespace Descent.Pattern

namespace Node

variable {step step' : Cursor → List Cursor} {greedy : Bool} {n : ℕ} {c d e : Cursor}

/-- The places after so many rounds. -/
def times (step : Cursor → List Cursor) : ℕ → Cursor → List Cursor
  | 0, c => [c]
  | n + 1, c => (step c).flatMap (times step n)

/-- A place and those after it, in the order that greed asks for. -/
def arrange (greedy : Bool) (c : Cursor) (more : List Cursor) : List Cursor :=
  if greedy then more ++ [c] else c :: more

/-- The places after so many rounds at most. -/
def upTo (step : Cursor → List Cursor) (greedy : Bool) : ℕ → Cursor → List Cursor
  | 0, c => [c]
  | n + 1, c => arrange greedy c ((step c).flatMap (upTo step greedy n))

/-- The places after any number of rounds. No more rounds take anything than there are characters. -/
def anyTimes (step : Cursor → List Cursor) (greedy : Bool) (c : Cursor) : List Cursor :=
  upTo step greedy c.rest.length c

/-- The places where a match from `c` on can end, in order of preference. -/
def ends : Node → Cursor → List Cursor
  | empty, c => [c]
  | set s, c => (c.takeIn s).toList
  | look l, c => if l.holds c then [c] else []
  | seq a b, c => Cursor.distinct ((a.ends c).flatMap b.ends)
  | alt a b, c => Cursor.distinct (a.ends c ++ b.ends c)
  | loop least most greedy body, c =>
    Cursor.distinct ((times body.ends least c).flatMap fun d =>
      match most with
      | some most => upTo body.ends greedy (most - least) d
      | none => anyTimes body.ends greedy d)

/-- Nothing that is repeated without a greatest count matches the empty text. -/
def settled : Node → Bool
  | empty | set _ | look _ => true
  | seq a b => a.settled && b.settled
  | alt a b => a.settled && b.settled
  | loop _ most _ body => body.settled && (most.isSome || 0 < body.minWidth)

/-! ## All ends -/

theorem mem_arrange {more : List Cursor} : e ∈ arrange greedy c more ↔ e = c ∨ e ∈ more := by
  unfold arrange
  split
  · simp [or_comm]
  · simp

theorem mem_times : e ∈ times step n c ↔ Rounds (fun c e => e ∈ step c) n c e := by
  induction n generalizing c with
  | zero => simp [times, Rounds]
  | succ n ih => simp [times, Rounds, ih]

/-- The last round apart. -/
theorem times_succ (step : Cursor → List Cursor) (n : ℕ) (c : Cursor) :
    times step (n + 1) c = (times step n c).flatMap step := by
  induction n generalizing c with
  | zero => simp [times]
  | succ n ih =>
    rw [times, times, List.flatMap_assoc]
    exact List.flatMap_congr fun d _ => ih d

theorem mem_upTo : e ∈ upTo step greedy n c ↔ ∃ m ≤ n, Rounds (fun c e => e ∈ step c) m c e := by
  induction n generalizing c with
  | zero => simp [upTo, Rounds]
  | succ n ih =>
    simp only [upTo, mem_arrange, List.mem_flatMap, ih]
    constructor
    · rintro (rfl | ⟨d, hd, m, hm, he⟩)
      · exact ⟨0, Nat.zero_le _, rfl⟩
      · exact ⟨m + 1, Nat.succ_le_succ hm, d, hd, he⟩
    · rintro ⟨_ | m, hm, he⟩
      · exact .inl he
      · obtain ⟨d, hd, he⟩ := he
        exact .inr ⟨d, hd, m, Nat.le_of_succ_le_succ hm, he⟩

/-- Rounds that take nothing can be left out, so that no more are made than there are characters. -/
theorem mem_anyTimes (hstep : ∀ c, ∀ e ∈ step c, c.Ahead e) :
    e ∈ anyTimes step greedy c ↔ ∃ n, Rounds (fun c e => e ∈ step c) n c e := by
  rw [anyTimes, mem_upTo]
  refine ⟨fun ⟨m, _, he⟩ => ⟨m, he⟩, ?_⟩
  rintro ⟨n, hrounds⟩
  induction n generalizing c with
  | zero => exact ⟨0, Nat.zero_le _, hrounds⟩
  | succ n ih =>
    obtain ⟨d, hd, hrounds⟩ := hrounds
    obtain ⟨m, hm, he⟩ := ih hrounds
    rcases (hstep c d hd).eq_or_length_lt with rfl | hlt
    · exact ⟨m, hm, he⟩
    · exact ⟨m + 1, by omega, d, hd, he⟩

/-! ## Going forward -/

/-- One step after another goes forward if both do. -/
theorem ahead_flatMap (hstep : ∀ c, ∀ e ∈ step c, c.Ahead e)
    (hstep' : ∀ c, ∀ e ∈ step' c, c.Ahead e) : ∀ c, ∀ e ∈ (step c).flatMap step', c.Ahead e := by
  intro c e he
  obtain ⟨d, hd, he⟩ := List.mem_flatMap.1 he
  exact (hstep c d hd).trans (hstep' d e he)

theorem ahead_times (hstep : ∀ c, ∀ e ∈ step c, c.Ahead e) :
    ∀ c, ∀ e ∈ times step n c, c.Ahead e :=
  fun _ _ he => ahead_of_rounds hstep (mem_times.1 he)

theorem ahead_upTo (hstep : ∀ c, ∀ e ∈ step c, c.Ahead e) :
    ∀ c, ∀ e ∈ upTo step greedy n c, c.Ahead e := by
  intro c e he
  obtain ⟨m, -, hrounds⟩ := mem_upTo.1 he
  exact ahead_of_rounds hstep hrounds

/-- If each round takes something, there is none at the end of the text. -/
theorem upTo_of_nil (hstep : ∀ c, ∀ d ∈ step c, d.rest.length < c.rest.length)
    (hc : c.rest.length = 0) (n : ℕ) : upTo step greedy n c = [c] := by
  have hnone : step c = [] := List.eq_nil_iff_forall_not_mem.2 fun d hd => by
    have hlt := hstep c d hd
    omega
  cases n with
  | zero => rfl
  | succ n =>
    rw [upTo, hnone]
    cases greedy <;> rfl

/-- If each round takes something, more rounds than there are characters change nothing. -/
theorem upTo_congr (hstep : ∀ c, ∀ d ∈ step c, d.rest.length < c.rest.length) {m : ℕ}
    (hn : c.rest.length ≤ n) (hm : c.rest.length ≤ m) :
    upTo step greedy n c = upTo step greedy m c := by
  induction n generalizing c m with
  | zero => rw [upTo_of_nil hstep (Nat.le_zero.1 hn) 0, upTo_of_nil hstep (Nat.le_zero.1 hn) m]
  | succ n ih =>
    cases m with
    | zero => rw [upTo_of_nil hstep (Nat.le_zero.1 hm), upTo_of_nil hstep (Nat.le_zero.1 hm)]
    | succ m =>
      have hrounds : (step c).flatMap (upTo step greedy n) = (step c).flatMap (upTo step greedy m) :=
        List.flatMap_congr fun d hd => by
          have hlt := hstep c d hd
          exact ih (by omega) (by omega)
      rw [upTo, upTo, hrounds]

/-- If each round takes something, any number of rounds is none, or a first one and any number. -/
theorem anyTimes_eq (hstep : ∀ c, ∀ d ∈ step c, d.rest.length < c.rest.length) (c : Cursor) :
    anyTimes step greedy c = arrange greedy c ((step c).flatMap (anyTimes step greedy)) := by
  have hrounds : (step c).flatMap (upTo step greedy c.rest.length) =
      (step c).flatMap (anyTimes step greedy) :=
    List.flatMap_congr fun d hd => upTo_congr hstep (Nat.le_of_lt (hstep c d hd)) (Nat.le_refl _)
  rw [anyTimes, upTo_congr hstep (Nat.le_refl _) (Nat.le_succ _), upTo, hrounds]

/-- The list holds just the places where a match can end. -/
theorem mem_ends_iff (node : Node) : e ∈ node.ends c ↔ node.Matches c e := by
  -- Leaving out repetitions loses nothing, since all ends are after the place where the match begins.
  have hdistinct {node : Node} {c : Cursor} {cs : List Cursor}
      (hmem : ∀ e, e ∈ cs ↔ node.Matches c e) : ∀ e, e ∈ Cursor.distinct cs ↔ node.Matches c e :=
    fun e => (Cursor.mem_distinct fun e he => ((hmem e).1 he).ahead).trans (hmem e)
  induction node generalizing c e with
  | empty => exact List.mem_singleton
  | set s => exact Option.mem_toList
  | look l =>
    rw [ends, Matches]
    split <;> simp_all
  | seq a b iha ihb =>
    refine hdistinct (fun e => ?_) e
    simp only [List.mem_flatMap, iha, ihb, Matches]
  | alt a b iha ihb =>
    refine hdistinct (fun e => ?_) e
    simp only [List.mem_append, iha, ihb, Matches]
  | loop least most greedy body ih =>
    have hrounds : Rounds (fun c e => e ∈ body.ends c) = Rounds body.Matches :=
      rounds_congr fun c e => ih
    refine hdistinct (fun e => ?_) e
    cases most with
    | some most => simp only [List.mem_flatMap, mem_times, mem_upTo, hrounds, Matches, allowed_iff]
    | none =>
      have hmore (d : Cursor) : e ∈ anyTimes body.ends greedy d ↔
          ∃ n, Rounds (fun c e => e ∈ body.ends c) n d e := mem_anyTimes fun _ _ he => (ih.1 he).ahead
      simp only [List.mem_flatMap, mem_times, hmore, hrounds, Matches, allowed_none_iff]

/-- The ends stand after the place where the match begins. -/
theorem ahead_of_mem_ends {node : Node} (h : e ∈ node.ends c) : c.Ahead e :=
  ((mem_ends_iff node).1 h).ahead

/-- What matches nothing but texts with characters leaves fewer characters. -/
theorem length_lt_of_mem_ends {node : Node} (hwidth : 0 < node.minWidth) (h : e ∈ node.ends c) :
    e.rest.length < c.rest.length := by
  have hmatches := (mem_ends_iff node).1 h
  refine hmatches.ahead.eq_or_length_lt.resolve_left ?_
  rintro rfl
  have hle := minWidth_le hmatches
  omega

end Node

/-- Of the matches of a pattern that begin where the reported one does, the engine reports the one that
the pattern prefers. -/
def Engine.PrefersFirst (engine : Engine) (source : List Char) (node : Node) : Prop :=
  ∀ {find chars c last}, engine.compile? source node = some find → (Cursor.start chars).Ahead c →
    find chars = some (c.offset, last) → (node.ends c).head?.map Cursor.offset = some last

end Descent.Pattern
