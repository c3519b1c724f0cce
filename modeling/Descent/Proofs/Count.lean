import Descent.Proofs.Algebra
import Descent.Proofs.Taking

/-!
# Counts and loops

A parser that is to succeed `m + n` times in a row is to succeed `m` times, and then `n` times. A loop
takes as many successes as there are, unless it ends earlier because nothing is left, or because
nothing was taken. If the parser takes something whenever it succeeds, there is none to be had where
the loop has ended; so the number of its rounds decides which counts succeed, and a loop after such a
count takes what is missing to the loop (`run_counts`).
-/

namespace Descent

namespace Step

variable {body : Step} {t : Text} {limit limit' n : Nat} {many : Repetition}

/-! ## Counts add up -/

/-- A count that fails hands back its text. -/
theorem failure_of_exactly {x : Text} {l : Log} (h : exactly n body t = some ⟨.failure x, l⟩) :
    x = t := by
  cases n with
  | zero => cases h
  | succ n =>
    rw [exactly_succ] at h
    rcases sequence_cases h with ⟨_, _, _, hr⟩ | ⟨_, _, _, _, _, _, _, hr⟩ |
      ⟨_, _, _, _, _, _, _, _, hr⟩
    · cases hr
      rfl
    · cases hr
      rfl
    · cases hr

/-- A count of none in front of another changes nothing. -/
theorem sequence_exactly_zero (n : Nat) (body : Step) :
    sequence (· ++ ·) (exactly 0 body) (exactly n body) = exactly n body := by
  funext t
  have hzero : exactly 0 body t = some ⟨.success [] t, []⟩ := rfl
  cases hn : exactly n body t with
  | none => simp [sequence, hzero, hn]
  | some run =>
    obtain ⟨o, l⟩ := run
    cases o with
    | success m x => simp [sequence, hzero, hn]
    | failure x =>
      obtain rfl := failure_of_exactly hn
      simp [sequence, hzero, hn]

/-- A sum is counted in two parts. -/
theorem exactly_add (m n : Nat) (body : Step) :
    exactly (m + n) body = sequence (· ++ ·) (exactly m body) (exactly n body) := by
  induction m with
  | zero => rw [Nat.zero_add, sequence_exactly_zero]
  | succ m ih =>
    calc exactly (m + 1 + n) body
        = exactly (m + n + 1) body := by rw [Nat.add_right_comm]
      _ = sequence (· ++ ·) body (sequence (· ++ ·) (exactly m body) (exactly n body)) := by
          rw [exactly_succ, ih]
      _ = sequence (· ++ ·) (exactly (m + 1) body) (exactly n body) := by
          rw [exactly_succ, sequence_assoc List.append_assoc]

/-! ## The rounds of a loop, counted -/

/-- A loop that comes to its end was allowed a round. -/
theorem exists_limit_eq (h : repeatFrom body limit (.start t) = some many) :
    ∃ k, limit = k + 1 := by
  cases limit with
  | zero => cases h
  | succ k => exact ⟨k, rfl⟩

/-- A loop that comes to its end has found a failure, or ends with its first round, or has gone on
after it. -/
theorem repeatFrom_cases (h : repeatFrom body (limit + 1) (.start t) = some many) :
    (∃ x l, body t = some ⟨.failure x, l⟩ ∧ many = ⟨0, [], t, l.reverse⟩) ∨
    (∃ m x l, body t = some ⟨.success m x, l⟩ ∧ (x.size = 0 ∨ x.size = t.size) ∧
      many = ⟨1, m.reverse, x, l.reverse⟩) ∨
    (∃ m x l rest, body t = some ⟨.success m x, l⟩ ∧ repeatFrom body limit (.start x) = some rest ∧
      many = ⟨1 + rest.count, rest.matched ++ m.reverse, rest.rest, rest.log ++ l.reverse⟩) := by
  have hstart : (Repetition.start t).rest = t := rfl
  simp only [repeatFrom, hstart] at h
  cases hb : body t with
  | none => simp [hb] at h
  | some first =>
    obtain ⟨o, l⟩ := first
    cases o with
    | failure x =>
      simp only [hb, Option.some.injEq] at h
      exact .inl ⟨x, l, rfl, by simp [← h, Repetition.start]⟩
    | success m x =>
      simp only [hb] at h
      by_cases hx : x.size = 0 ∨ x.size = t.size
      · simp only [hx, if_true, Option.some.injEq] at h
        exact .inr (.inl ⟨m, x, l, rfl, hx, by simp [← h, Repetition.start, Repetition.add]⟩)
      · simp only [hx, if_false] at h
        rw [repeatFrom_eq_map] at h
        obtain ⟨rest, hrest, hmany⟩ := Option.map_eq_some_iff.1 h
        exact .inr (.inr ⟨m, x, l, rest, rfl, hrest,
          by simp [← hmany, Repetition.start, Repetition.add]⟩)

/-- A loop has succeeded as often as it counts, in a row, with the match and the rest that it
reports. -/
theorem exactly_count (h : repeatFrom body limit (.start t) = some many) :
    ∃ l, exactly many.count body t = some ⟨.success many.matched.reverse many.rest, l⟩ := by
  induction limit generalizing t many with
  | zero => cases h
  | succ limit ih =>
    rcases repeatFrom_cases h with ⟨x, l, _, rfl⟩ | ⟨m, x, l, hb, _, rfl⟩ |
      ⟨m, x, l, rest, hb, hrest, rfl⟩
    · exact ⟨[], rfl⟩
    · have hzero : exactly 0 body x = some ⟨.success [] x, []⟩ := rfl
      exact ⟨l, by simp [exactly_succ 0, sequence, hb, hzero]⟩
    · obtain ⟨l', hcount⟩ := ih hrest
      refine ⟨l ++ l', ?_⟩
      simp [Nat.add_comm 1, exactly_succ, sequence, hb, hcount]

/-- Every count up to that of the successes succeeds. -/
theorem exactly_of_le_count (h : repeatFrom body limit (.start t) = some many)
    (hn : n ≤ many.count) : ∃ m x l, exactly n body t = some ⟨.success m x, l⟩ := by
  obtain ⟨l, hcount⟩ := exactly_count h
  obtain ⟨k, hk⟩ := Nat.exists_eq_add_of_le hn
  rw [hk, exactly_add] at hcount
  obtain ⟨m, x, l', _, _, hfirst, _⟩ := sequence_success hcount
  exact ⟨m, x, l', hfirst⟩

/-- Before its last round a loop has the rest of its rounds before it. -/
theorem many0_after (h : repeatFrom body limit (.start t) = some many) (hlimit : limit ≤ limit')
    (hn : n < many.count) : ∃ m x l k l', exactly n body t = some ⟨.success m x, l⟩ ∧
      many0 limit' body x = some ⟨.success k many.rest, l'⟩ ∧ m ++ k = many.matched.reverse := by
  induction n generalizing limit t many with
  | zero =>
    have hloop : many0 limit body t = some many.succeed := by simp [many0, h]
    exact ⟨[], t, [], _, _, rfl, many0_below (fun h => h) hlimit hloop, rfl⟩
  | succ n ih =>
    obtain ⟨limit, rfl⟩ := exists_limit_eq h
    rcases repeatFrom_cases h with ⟨x, l, _, rfl⟩ | ⟨m, x, l, _, _, rfl⟩ |
      ⟨m, x, l, rest, hb, hrest, rfl⟩
    · exact absurd hn (Nat.not_lt_zero _)
    · exact absurd hn (by simp)
    · have hlt : n < rest.count := by simpa [Nat.add_comm 1] using hn
      obtain ⟨m', y, l', k, l'', hcount, hloop, hmatch⟩ := ih hrest (by omega) hlt
      refine ⟨m ++ m', y, l ++ l', k, l'', ?_, hloop, by simp [hmatch]⟩
      simp [exactly_succ, sequence, hb, hcount]

/-- Every success of the step leaves less than there was. -/
def Consuming (body : Step) : Prop :=
  ∀ (t : Text) m x l, body t = some ⟨.success m x, l⟩ → x.size < t.size

/-- Where a loop over such a step has ended, there is no other success. -/
theorem Consuming.exhausted (hbody : Consuming body)
    (h : repeatFrom body limit (.start t) = some many) (m : List Char) (x : Text) (l : Log) :
    body many.rest ≠ some ⟨.success m x, l⟩ := by
  induction limit generalizing t many with
  | zero => cases h
  | succ limit ih =>
    rcases repeatFrom_cases h with ⟨y, l', hb, rfl⟩ | ⟨m', y, l', hb, hy, rfl⟩ |
      ⟨m', y, l', rest, _, hrest, rfl⟩
    · simp [hb]
    · intro hagain
      have hfirst := hbody t m' y l' hb
      have hsecond := hbody y m x l hagain
      omega
    · exact (ih hrest :)

/-- No greater count succeeds than that of the loop. -/
theorem Consuming.exactly_of_count_lt (hbody : Consuming body)
    (h : repeatFrom body limit (.start t) = some many) (hn : many.count < n) :
    (exactly n body t).map Run.outcome = (body many.rest).map fun _ => .failure t := by
  obtain ⟨l, hcount⟩ := exactly_count h
  obtain ⟨k, rfl⟩ : ∃ k, n = many.count + (k + 1) := ⟨n - many.count - 1, by omega⟩
  rw [exactly_add]
  cases hb : body many.rest with
  | none =>
    have hmore : exactly (k + 1) body many.rest = none := by simp [exactly_succ, sequence, hb]
    simp [sequence, hcount, hmore]
  | some run =>
    obtain ⟨o, l'⟩ := run
    cases o with
    | failure x =>
      have hmore : exactly (k + 1) body many.rest = some ⟨.failure many.rest, l'⟩ := by
        simp [exactly_succ, sequence, hb]
      simp [sequence, hcount, hmore]
    | success m x => exact absurd hb (hbody.exhausted h m x l')

/-- After its last round a loop has nothing before it. -/
theorem Consuming.many0_at_end (hbody : Consuming body)
    (h : repeatFrom body limit (.start t) = some many) :
    (sequence (· ++ ·) (exactly many.count body) (many0 limit body) t).map Run.outcome =
      (body many.rest).map fun _ => many.succeed.outcome := by
  obtain ⟨l, hcount⟩ := exactly_count h
  obtain ⟨limit, rfl⟩ := exists_limit_eq h
  cases hb : body many.rest with
  | none =>
    have hloop : many0 (limit + 1) body many.rest = none := by
      simp [many0, repeatFrom, Repetition.start, hb]
    simp [sequence, hcount, hloop]
  | some run =>
    obtain ⟨o, l'⟩ := run
    cases o with
    | failure x => simp [sequence, hcount, many0_stop limit hb, Repetition.succeed]
    | success m x => exact absurd hb (hbody.exhausted h m x l')

end Step

/-! ## Counts of parsers -/

namespace Store

variable {s : Store} {p : Parser} {t : Text} {depth n : Nat}

/-- Every success of the parser leaves less than there was. Whether that is an end part of the text
is not asked. -/
def Consuming (s : Store) (p : Parser) : Prop :=
  ∀ (t : Text) m x l, s.Runs p t ⟨.success m x, l⟩ → x.size < t.size

/-- A count runs its body at its own depth. -/
theorem step_exactly : s.step depth (.exactly n p) t = Step.exactly n (s.step depth p) t := by
  cases depth <;> rfl

/-- What is true of counts of a parser on a text, and of loops after them, if a loop over the parser
has ended there after `many`. -/
structure Counts (s : Store) (depth : Nat) (p : Parser) (t : Text) (many : Step.Repetition) :
    Prop where
  /-- The counts that succeed are those up to the number of rounds of the loop. -/
  succeeds_iff : ∀ n, (∃ m x l, s.step depth (.exactly n p) t = some ⟨.success m x, l⟩) ↔
    n ≤ many.count
  /-- A greater count runs the parser on what the loop has left. If that run ends, the count fails and
  hands back the whole text. -/
  fails : ∀ n, many.count < n → (s.step depth (.exactly n p) t).map Run.outcome =
    (s.step depth p many.rest).map fun _ => .failure t
  /-- A loop after a smaller count comes to the same as the loop. -/
  loop_after : ∀ n < many.count,
    (s.step depth (.exactly n p >>> .many0 p) t).map Run.outcome = some many.succeed.outcome
  /-- A loop after as many successes as it has rounds, which runs the parser on what is left, comes to
  the same as the loop if that run ends. -/
  loop_at_end : (s.step depth (.exactly many.count p >>> .many0 p) t).map Run.outcome =
    (s.step depth p many.rest).map fun _ => many.succeed.outcome

end Store

open Store

/-- Counts of any parser add up. If the parser takes something whenever it succeeds, a count of it
succeeds just if it is no greater than the number of rounds that a loop goes on such a text, and fails
with the whole text if it is greater; and a loop after a count that succeeds comes to the same as the
loop alone. -/
theorem run_counts (s : Store) (p : Parser) (depth : Nat) (t : Text) :
    (∀ m n, s.step depth (.exactly (m + n) p) t =
      s.step depth (.exactly m p >>> .exactly n p) t) ∧
    (s.Consuming p → ∀ r, s.step depth (.many0 p) t = some r →
      ∃ many, Step.repeatFrom (s.step depth p) depth (.start t) = some many ∧ r = many.succeed ∧
        s.Counts depth p t many) := by
  have hcount (n : Nat) : s.step depth (.exactly n p) = Step.exactly n (s.step depth p) :=
    funext fun _ => step_exactly
  have hloop : s.step depth (.many0 p) = Step.many0 depth (s.step depth p) :=
    funext fun _ => step_many0
  refine ⟨fun m n => ?_, fun hp r hr => ?_⟩
  · rw [step_shiftRight, hcount, hcount, hcount, Step.exactly_add]
  · rw [hloop] at hr
    obtain ⟨many, hmany, hend⟩ := Option.bind_eq_some_iff.1 hr
    have hbody : Step.Consuming (s.step depth p) := fun x m y l h => hp x m y l (.of_step h)
    refine ⟨many, hmany, (Option.some.inj hend).symm, ?_, ?_, ?_, ?_⟩
    · intro n
      rw [hcount]
      refine ⟨fun ⟨m, x, l, h⟩ => Nat.le_of_not_lt fun hlt => ?_, Step.exactly_of_le_count hmany⟩
      have hfails := hbody.exactly_of_count_lt hmany hlt
      rw [h] at hfails
      cases hrest : s.step depth p many.rest <;> simp [hrest] at hfails
    · intro n hn
      rw [hcount]
      exact hbody.exactly_of_count_lt hmany hn
    · intro n hn
      rw [step_shiftRight, hcount, hloop]
      obtain ⟨m, x, l, k, l', hfirst, hsecond, hmatch⟩ := Step.many0_after hmany (Nat.le_refl _) hn
      simp [Step.sequence, hfirst, hsecond, Step.Repetition.succeed, hmatch]
    · rw [step_shiftRight, hcount, hloop]
      exact hbody.many0_at_end hmany

/-- Two letters are there, as often as a loop goes round, and a third is not: the count of three fails,
although the text has not come to its end before the loop has. -/
theorem run_counts_letters :
    let t : Text := .ofList ['a', 'b']
    Store.empty.Consuming .anyLetter ∧
      ∃ many, Store.empty.step 2 (.many0 .anyLetter) t = some many.succeed ∧ many.count = 2 ∧
        Store.empty.Counts 2 .anyLetter t many ∧
        (Store.empty.step 2 (.exactly 3 .anyLetter) t).map Run.outcome = some (.failure t) := by
  intro t
  have hletter : Store.empty.Consuming .anyLetter := fun t m x l h =>
    Parser.char_takes (congrArg Run.outcome (h.eq_direct rfl)).symm
  obtain ⟨_, hloop⟩ := run_counts Store.empty .anyLetter 2 t
  obtain ⟨many, hmany, hr, hcounts⟩ := hloop hletter _ rfl
  cases hmany
  have hfails := hcounts.fails 3 (by decide)
  exact ⟨hletter, _, hr ▸ rfl, rfl, hcounts, hfails⟩

end Descent
