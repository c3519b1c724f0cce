import Descent.Proofs.Runs
import Mathlib.Data.List.Infix

/-!
# Loops end, take all they can, and gain nothing from being repeated

A loop runs its body on shorter and shorter texts, so there are at most as many rounds as the text has
bytes, and one more. What the loop leaves is a text from which its body takes nothing; so a loop after
a loop, or around one, adds nothing. A loop that must go round once differs only where its body fails
at once (`run_repeats`). All this is so for any body that always comes to an end, leaves an end part of
its text, and matches nothing when it takes nothing.
-/

namespace Descent

namespace Step

variable {body body' inner : Step} {t x y : Text} {m n : List Char} {l : Log} {r : Run}
  {limit : Nat}

/-- On every end part of a text the step has an answer; its successes leave an end part, and match
nothing if they take nothing. -/
structure Orderly (body : Step) (t : Text) : Prop where
  answers : ∀ x : Text, x.chars <:+ t.chars → ∃ r, body x = some r
  suffix : ∀ (x y : Text) m l, x.chars <:+ t.chars → body x = some ⟨.success m y, l⟩ →
    y.chars <:+ x.chars
  matched : ∀ (x : Text) m l, x.chars <:+ t.chars → body x = some ⟨.success m x, l⟩ → m = []

/-- What is orderly on a text is orderly on its end parts. -/
theorem Orderly.of_suffix (h : Orderly body t) (hx : x.chars <:+ t.chars) : Orderly body x :=
  ⟨fun y hy => h.answers y (hy.trans hx), fun y z m l hy => h.suffix y z m l (hy.trans hx),
    fun y m l hy => h.matched y m l (hy.trans hx)⟩

/-- From the text the step takes nothing: it fails, or matches nothing and leaves the text. -/
def Idle (body : Step) (t : Text) : Prop :=
  ∃ o l, body t = some ⟨o, l⟩ ∧ ((∃ x, o = .failure x) ∨ o = .success [] t)

/-- If such a step succeeds, it leaves the text. -/
theorem Idle.eq_of_success {n : List Char} {y : Text} {l' : Log} (h : Idle body t)
    (hb : body t = some ⟨.success n y, l'⟩) : y = t := by
  obtain ⟨o, l, hb', ⟨x, rfl⟩ | rfl⟩ := h
  · cases hb.symm.trans hb'
  · cases hb.symm.trans hb'
    rfl

/-- A loop over such a step takes nothing. -/
theorem Idle.many0 (h : Idle body t) (limit : Nat) :
    ∃ l, many0 (limit + 1) body t = some ⟨.success [] t, l⟩ := by
  obtain ⟨o, l, hb, ⟨x, rfl⟩ | rfl⟩ := h
  · exact ⟨l, many0_stop limit hb⟩
  · exact ⟨l, many0_last limit hb (.inr rfl)⟩

/-- A loop over an idle step that must go round once takes nothing. -/
theorem Idle.many1 (h : Idle body t) : Idle (many1 (limit + 1) body) t := by
  obtain ⟨o, l, hb, ⟨x, rfl⟩ | rfl⟩ := h
  · exact ⟨_, l, many1_of_failure limit hb, .inl ⟨t, rfl⟩⟩
  · exact ⟨_, l, (many1_of_success limit hb).trans (many0_last limit hb (.inr rfl)), .inr rfl⟩

/-- A success that leaves as much as there was takes nothing. -/
theorem Orderly.idle_of_size (h : Orderly body t) (hb : body t = some ⟨.success m x, l⟩)
    (hx : x.size = t.size) : x = t ∧ m = [] ∧ Idle body t := by
  obtain rfl := Text.eq_of_suffix_of_size (h.suffix t x m l List.suffix_rfl hb) hx
  obtain rfl := h.matched x m l List.suffix_rfl hb
  exact ⟨rfl, rfl, _, l, hb, .inr rfl⟩

/-- From the empty text an orderly step takes nothing. -/
theorem Orderly.idle_of_empty (h : Orderly body t) (ht : t.size = 0) : Idle body t := by
  obtain ⟨⟨o, l⟩, hb⟩ := h.answers t List.suffix_rfl
  cases o with
  | failure x => exact ⟨_, l, hb, .inl ⟨x, rfl⟩⟩
  | success m x =>
    have hx := Text.eq_of_suffix_of_empty (h.suffix t x m l List.suffix_rfl hb) ht
    exact (h.idle_of_size hb (by rw [hx])).2.2

/-! ## The rounds of a loop -/

/-- The rounds of a loop: on which texts, first to last, the body is run, and how the loop ends. -/
inductive Rounds (body : Step) : Text → List Text → Run → Prop
  | stop {t x : Text} {l : Log} (hb : body t = some ⟨.failure x, l⟩) :
      Rounds body t [t] ⟨.success [] t, l⟩
  | last {t x : Text} {m : List Char} {l : Log} (hb : body t = some ⟨.success m x, l⟩)
      (hx : x.size = 0 ∨ x.size = t.size) : Rounds body t [t] ⟨.success m x, l⟩
  | more {t x y : Text} {m n : List Char} {l l' : Log} {visited : List Text}
      (hb : body t = some ⟨.success m x, l⟩) (hx : ¬(x.size = 0 ∨ x.size = t.size))
      (hrest : Rounds body x visited ⟨.success n y, l'⟩) :
      Rounds body t (t :: visited) ⟨.success (m ++ n) y, l ++ l'⟩

variable {visited : List Text}

/-- A loop needs no greater limit than it has rounds. -/
theorem Rounds.many0_eq (h : Rounds body t visited r) :
    many0 visited.length body t = some r := by
  induction h with
  | stop hb => exact many0_stop 0 hb
  | last hb hx => exact many0_last 0 hb hx
  | more hb hx _ ih => exact many0_more hb hx ih

/-- A loop that must go round once needs no greater limit than it has rounds. It fails if its body
fails at once, and is like the other loop if not. -/
theorem Rounds.exists_many1 (h : Rounds body t visited r) : ∃ first, body t = some first ∧
    many1 visited.length body t =
      some (if first.outcome.ok then r else ⟨.failure t, r.log⟩) := by
  have hloop := h.many0_eq
  cases h with
  | stop hb => exact ⟨_, hb, many1_of_failure 0 hb⟩
  | last hb _ | more hb _ _ => exact ⟨_, hb, (many1_of_success _ hb).trans hloop⟩

/-- The events of a loop are those of its rounds. -/
theorem Rounds.log_eq (h : Rounds body t visited r) :
    r.log = visited.flatMap fun x => (body x).elim [] Run.log := by
  induction h with
  | stop hb | last hb _ => simp [hb]
  | more hb _ _ ih => simpa [hb] using ih

/-- A loop over an orderly body comes to an end. -/
theorem Orderly.exists_rounds (h : Orderly body t) :
    ∃ visited m x l, Rounds body t visited ⟨.success m x, l⟩ := by
  induction hsize : t.size using Nat.strongRecOn generalizing t with
  | ind size ih =>
    obtain ⟨⟨o, l⟩, hb⟩ := h.answers t List.suffix_rfl
    cases o with
    | failure x => exact ⟨_, _, _, _, .stop hb⟩
    | success m x =>
      have hsuffix := h.suffix t x m l List.suffix_rfl hb
      by_cases hx : x.size = 0 ∨ x.size = t.size
      · exact ⟨_, _, _, _, .last hb hx⟩
      · have hle := Text.size_le_of_suffix hsuffix
        obtain ⟨visited, n, y, l', hrest⟩ := ih x.size (by omega) (h.of_suffix hsuffix) rfl
        exact ⟨_, _, _, _, .more hb hx hrest⟩

/-- A step that does the same on all end parts is orderly as well. -/
theorem Orderly.congr (h : Orderly body t)
    (hsame : ∀ x : Text, x.chars <:+ t.chars → body' x = body x) : Orderly body' t := by
  refine ⟨fun x hx => ?_, fun x y m l hx hb => ?_, fun x m l hx hb => ?_⟩
  · rw [hsame x hx]
    exact h.answers x hx
  · rw [hsame x hx] at hb
    exact h.suffix x y m l hx hb
  · rw [hsame x hx] at hb
    exact h.matched x m l hx hb

/-- A loop over it has the same rounds. -/
theorem Rounds.congr (h : Rounds body t visited r) (horderly : Orderly body t)
    (hsame : ∀ x : Text, x.chars <:+ t.chars → body' x = body x) : Rounds body' t visited r := by
  induction h with
  | stop hb => exact .stop ((hsame _ List.suffix_rfl).trans hb)
  | last hb hx => exact .last ((hsame _ List.suffix_rfl).trans hb) hx
  | @more t x y m n l l' visited hb hx _ ih =>
    have hsuffix := horderly.suffix t x m l List.suffix_rfl hb
    exact .more ((hsame _ List.suffix_rfl).trans hb) hx
      (ih (horderly.of_suffix hsuffix) fun y hy => hsame y (hy.trans hsuffix))

/-- The body is run on shorter and shorter texts. -/
theorem Rounds.decreasing (h : Rounds body t visited r) (horderly : Orderly body t) :
    (∀ x ∈ visited, x.size ≤ t.size) ∧ visited.Pairwise fun x y => y.size < x.size := by
  induction h with
  | stop hb | last hb _ => simp
  | @more t x y m n l l' visited hb hx _ ih =>
    have hsuffix := horderly.suffix t x m l List.suffix_rfl hb
    have hle := Text.size_le_of_suffix hsuffix
    obtain ⟨hall, hpairwise⟩ := ih (horderly.of_suffix hsuffix)
    have hlt : ∀ z ∈ visited, z.size < t.size := fun z hz =>
      Nat.lt_of_le_of_lt (hall z hz) (by omega)
    refine ⟨fun z hz => ?_, List.pairwise_cons.2 ⟨hlt, hpairwise⟩⟩
    rcases List.mem_cons.1 hz with rfl | hz
    · exact Nat.le_refl _
    · exact Nat.le_of_lt (hlt z hz)

/-- There are at most as many rounds as the text has bytes, and one more. -/
theorem Rounds.length_le (h : Rounds body t visited r) (horderly : Orderly body t) :
    visited.length ≤ t.size + 1 := by
  induction h with
  | stop hb | last hb _ => simp
  | @more t x y m n l l' visited hb hx _ ih =>
    have hsuffix := horderly.suffix t x m l List.suffix_rfl hb
    have hle := Text.size_le_of_suffix hsuffix
    have hrest := ih (horderly.of_suffix hsuffix)
    rw [List.length_cons]
    omega

/-- The loop leaves an end part from which the body takes nothing. If it takes nothing itself, it
matches nothing. -/
theorem Rounds.settled (h : Rounds body t visited ⟨.success m x, l⟩) (horderly : Orderly body t) :
    x.chars <:+ t.chars ∧ (x.size = t.size → m = []) ∧ Idle body x := by
  generalize hr : (⟨.success m x, l⟩ : Run) = r at h
  induction h generalizing m x l with
  | stop hb =>
    cases hr
    exact ⟨List.suffix_rfl, fun _ => rfl, _, _, hb, .inl ⟨_, rfl⟩⟩
  | @last t x m l hb hx =>
    cases hr
    have hsuffix := horderly.suffix t x m l List.suffix_rfl hb
    refine ⟨hsuffix, fun hsize => (horderly.idle_of_size hb hsize).2.1, ?_⟩
    rcases hx with hzero | hsize
    · exact (horderly.of_suffix hsuffix).idle_of_empty hzero
    · obtain ⟨rfl, _, hidle⟩ := horderly.idle_of_size hb hsize
      exact hidle
  | @more t x y m n l l' visited hb hx _ ih =>
    cases hr
    have hsuffix := horderly.suffix t x m l List.suffix_rfl hb
    have hle := Text.size_le_of_suffix hsuffix
    obtain ⟨hrest, _, hidle⟩ := ih (horderly.of_suffix hsuffix) rfl
    have hle' := Text.size_le_of_suffix hrest
    exact ⟨hrest.trans hsuffix, fun hsize => by omega, hidle⟩

/-! ## Loops in and after loops -/

/-- What a step has left nothing for is all that a loop over it takes. -/
theorem many0_of_idle (hinner : inner t = some ⟨.success m x, l⟩) (hidle : Idle inner x)
    (limit : Nat) : ∃ l', many0 (limit + 2) inner t = some ⟨.success m x, l'⟩ := by
  by_cases hx : x.size = 0 ∨ x.size = t.size
  · exact ⟨l, many0_last _ hinner hx⟩
  · obtain ⟨l', hrest⟩ := hidle.many0 limit
    have hmore := many0_more hinner hx hrest
    rw [List.append_nil] at hmore
    exact ⟨l ++ l', hmore⟩

/-- A step after another that takes nothing there adds nothing. -/
theorem sequence_of_idle {after : Step} {l' : Log} (hinner : inner t = some ⟨.success m x, l⟩)
    (hafter : after x = some ⟨.success [] x, l'⟩) :
    sequence (· ++ ·) inner after t = some ⟨.success m x, l ++ l'⟩ := by
  simp [sequence, hinner, hafter]

/-- A loop that takes something is a round and a loop. -/
theorem sequence_many0 (horderly : Orderly body t) (hlimit : t.size < limit)
    (hb : body t = some ⟨.success m x, l⟩) : ∃ n y l' l'',
      many0 limit body t = some ⟨.success n y, l'⟩ ∧
        sequence (· ++ ·) body (many0 limit body) t = some ⟨.success n y, l''⟩ := by
  have hsuffix := horderly.suffix t x m l List.suffix_rfl hb
  obtain ⟨limit, rfl⟩ : ∃ k, limit = k + 1 := ⟨limit - 1, by omega⟩
  by_cases hx : x.size = 0 ∨ x.size = t.size
  · have hidle : Idle body x := by
      rcases hx with hzero | hsize
      · exact (horderly.of_suffix hsuffix).idle_of_empty hzero
      · obtain ⟨rfl, _, hidle⟩ := horderly.idle_of_size hb hsize
        exact hidle
    obtain ⟨l', hrest⟩ := hidle.many0 limit
    exact ⟨m, x, l, _, many0_last limit hb hx, sequence_of_idle hb hrest⟩
  · have hle := Text.size_le_of_suffix hsuffix
    obtain ⟨visited, n, y, l', hrounds⟩ := (horderly.of_suffix hsuffix).exists_rounds
    have hlength := hrounds.length_le (horderly.of_suffix hsuffix)
    have hrest : many0 limit body x = some ⟨.success n y, l'⟩ :=
      many0_below (fun h => h) (by omega) hrounds.many0_eq
    have hrest' : many0 (limit + 1) body x = some ⟨.success n y, l'⟩ :=
      many0_below (fun h => h) (by omega) hrounds.many0_eq
    exact ⟨m ++ n, y, _, l ++ l', many0_more hb hx hrest, by simp [sequence, hb, hrest']⟩

/-- A loop around a loop, or around one that must go round once, and a loop after a loop take what the
loop takes. -/
theorem Orderly.many0_idempotent (h : Orderly body t) (hlimit : t.size + 1 < limit) :
    ∃ m x l, many0 limit body t = some ⟨.success m x, l⟩ ∧
      (∃ l, many0 limit (many0 limit body) t = some ⟨.success m x, l⟩) ∧
      (∃ l, many0 limit (many1 limit body) t = some ⟨.success m x, l⟩) ∧
      ∃ l, sequence (· ++ ·) (many0 limit body) (many0 limit body) t = some ⟨.success m x, l⟩ := by
  obtain ⟨limit, rfl⟩ : ∃ k, limit = k + 2 := ⟨limit - 2, by omega⟩
  obtain ⟨visited, m, x, l, hrounds⟩ := h.exists_rounds
  have hlength := hrounds.length_le h
  have hloop : many0 (limit + 2) body t = some ⟨.success m x, l⟩ :=
    many0_below (fun h => h) (by omega) hrounds.many0_eq
  obtain ⟨_, _, hidle⟩ := hrounds.settled h
  obtain ⟨l', hagain⟩ := hidle.many0 (limit + 1)
  refine ⟨m, x, l, hloop, ?_, ?_, _, sequence_of_idle hloop hagain⟩
  · exact many0_of_idle hloop ⟨_, _, hagain, .inr rfl⟩ limit
  · -- Where the body fails at once, the outer loop finds nothing either.
    obtain ⟨⟨o, l''⟩, hb⟩ := h.answers t List.suffix_rfl
    cases o with
    | failure y =>
      have hsame := hloop.symm.trans (many0_stop (limit + 1) hb)
      cases hsame
      exact ⟨_, many0_stop _ (many1_of_failure _ hb)⟩
    | success n y =>
      have honce : many1 (limit + 2) body t = some ⟨.success m x, l⟩ :=
        (many1_of_success _ hb).trans hloop
      exact many0_of_idle honce hidle.many1 limit

end Step

/-! ## Loops over parsers -/

namespace Store

variable {s : Store} {p : Parser} {t x : Text}

/-- A parser whose runs end, and whose successes leave an end part of the text and match nothing if
they take nothing. -/
structure Orderly (s : Store) (p : Parser) : Prop where
  ends : ∀ t, ∃ r, s.run p t = some r
  suffix : ∀ (t x : Text) m l, s.run p t = some ⟨.success m x, l⟩ → x.chars <:+ t.chars
  matched : ∀ (t : Text) m l, s.run p t = some ⟨.success m t, l⟩ → m = []

/-- A longer text is granted more depth. -/
theorem depthFor_le (s : Store) (h : x.size ≤ t.size) : s.depthFor x ≤ s.depthFor t :=
  Nat.mul_le_mul_left _ (by omega)

/-- The depth that is granted is greater than the size of the text. -/
theorem size_lt_depthFor (s : Store) (t : Text) : t.size + 1 < s.depthFor t := by
  unfold depthFor
  calc t.size + 1 < 1 * (t.size + 2) := by omega
    _ ≤ (s.ruleCount + 0x100000000) * (t.size + 2) := Nat.mul_le_mul_right _ (by omega)

/-- At the depth that is granted for a text an orderly parser runs on end parts as it does by itself. -/
theorem Orderly.step_eq_run (h : s.Orderly p) (hx : x.chars <:+ t.chars) :
    s.step (s.depthFor t) p x = s.run p x := by
  obtain ⟨r, hr⟩ := h.ends x
  rw [hr]
  exact step_mono (s.depthFor_le (Text.size_le_of_suffix hx)) hr

/-- The runs of an orderly parser are an orderly step. -/
theorem Orderly.run (h : s.Orderly p) (t : Text) : Step.Orderly (s.run p) t :=
  ⟨fun x _ => h.ends x, fun x y m l _ => h.suffix x y m l, fun x m l _ => h.matched x m l⟩

/-- What is true of the loops over a parser, given its own run on a text and those of the two loops. -/
structure Repeats (s : Store) (p : Parser) (t : Text) (first many once : Run) : Prop where
  run_first : s.run p t = some first
  run_many : s.run (.many0 p) t = some many
  run_once : s.run (.many1 p) t = some once
  /-- The rounds of the loops are runs of the body on shorter and shorter texts: at most one for each
  byte, and one more. -/
  rounds : ∃ visited : List Text, visited.length ≤ t.size + 1 ∧
    (visited.Pairwise fun x y => y.size < x.size) ∧
    Step.many0 visited.length (s.run p) t = some many ∧
    Step.many1 visited.length (s.run p) t = some once ∧
    many.log = (visited.flatMap fun x => (s.run p x).elim [] Run.log) ∧ once.log = many.log
  /-- The loop that may go round no times succeeds. -/
  many_ok : many.outcome.ok = true
  /-- The parser takes nothing from what is left. -/
  idle : ∀ m x l, s.run p many.outcome.remaining = some ⟨.success m x, l⟩ →
    x = many.outcome.remaining
  /-- The loop that must go round once fails just if the parser does. -/
  once_ok : once.outcome.ok = first.outcome.ok
  once_of_failure : first.outcome.ok = false → once.outcome = .failure t
  /-- Where the parser succeeds, the loop that must go round once is like the other loop, and like the
  parser and the other loop after it. -/
  once_of_success : first.outcome.ok = true → once = many ∧
    ∃ l, s.run (.andThen p (.many0 p)) t = some ⟨many.outcome, l⟩
  /-- A loop around a loop, or after a loop, comes to the same. -/
  idempotent : ∀ q ∈ [.many0 (.many0 p), .many0 (.many1 p), .andThen (.many0 p) (.many0 p)],
    ∃ l, s.run q t = some ⟨many.outcome, l⟩

end Store

open Store

variable {s : Store} {p : Parser} {t : Text}

/-- Loops over a parser whose runs end, and whose successes leave an end part of the text and match
nothing if they take nothing, end within so many rounds as the text has bytes, and one more; they take
all that they can, and gain nothing from being repeated. -/
theorem run_repeats (h : s.Orderly p) (t : Text) :
    ∃ first many once, s.Repeats p t first many once := by
  let d := s.depthFor t
  have hd : t.size + 1 < d := s.size_lt_depthFor t
  have hsame : ∀ x : Text, x.chars <:+ t.chars → s.step d p x = s.run p x :=
    fun x hx => h.step_eq_run hx
  have horderly : Step.Orderly (s.step d p) t := (h.run t).congr hsame
  -- The rounds are the same with the depth that is granted for the whole text.
  obtain ⟨visited, m, x, l, hrounds⟩ := (h.run t).exists_rounds
  have hlength := hrounds.length_le (h.run t)
  have hrounds' := hrounds.congr (h.run t) hsame
  obtain ⟨first, hfirst, honce⟩ := hrounds.exists_many1
  obtain ⟨_, hfirst', honce'⟩ := hrounds'.exists_many1
  cases (hsame t List.suffix_rfl).symm.trans hfirst' |>.symm.trans hfirst
  have hloops : s.step d (.many0 p) = Step.many0 d (s.step d p) := funext fun _ => step_many0
  have hloops' : s.step d (.many1 p) = Step.many1 d (s.step d p) := funext fun _ => step_many1
  obtain ⟨m', x', l', hmany, haround, haround', hafter⟩ := horderly.many0_idempotent hd
  cases (Step.many0_below (fun h => h) (show _ ≤ d by omega) hrounds'.many0_eq).symm.trans hmany
  have hidle := (hrounds.settled (h.run t)).2.2
  have hround : first.outcome.ok = true →
      ∃ l', s.run (.andThen p (.many0 p)) t = some ⟨.success m x, l'⟩ := by
    intro hok
    obtain ⟨o, l'⟩ := first
    cases o with
    | failure y => cases hok
    | success n y =>
      have hb := (hsame t List.suffix_rfl).trans hfirst
      obtain ⟨_, _, _, l'', hmany', hround⟩ :=
        Step.sequence_many0 horderly (show t.size < d by omega) hb
      cases hmany'.symm.trans hmany
      exact ⟨l'', by rw [Store.run, step_of_joins (.andThen ..), hloops, hround]⟩
  refine ⟨first, ⟨.success m x, l⟩, _, {
    run_first := hfirst
    run_many := by rw [Store.run, hloops, hmany]
    run_once := ?_
    rounds := ⟨visited, hlength, (hrounds.decreasing (h.run t)).2, hrounds.many0_eq, honce,
      hrounds.log_eq, by split <;> rfl⟩
    many_ok := rfl
    idle := fun _ _ _ => hidle.eq_of_success
    once_ok := by cases hok : first.outcome.ok <;> rfl
    once_of_failure := fun hok => by simp [hok]
    once_of_success := fun hok => ⟨by simp [hok], hround hok⟩
    idempotent := ?_ }⟩
  · rw [Store.run, hloops']
    exact Step.many1_below (fun h => h) (show _ ≤ d by omega) honce'
  · simp only [List.forall_mem_cons, List.not_mem_nil, false_imp_iff, implies_true, and_true,
      Store.run]
    refine ⟨?_, ?_, ?_⟩
    · rw [step_many0, hloops]
      exact haround
    · rw [step_many0, hloops']
      exact haround'
    · rw [step_of_joins (.andThen ..), hloops]
      exact hafter

/-- A letter, or nothing. -/
def letterOrNothing : Parser := .orElse .anyLetter .empty

/-- The parser for a letter or nothing takes a letter if there is one. -/
theorem run_letterOrNothing {r : Run} (hr : Store.empty.run letterOrNothing t = some r) :
    (∃ c rest, t.chars = c :: rest ∧ r = ⟨.success [c] (.ofList rest), []⟩) ∨
      r = ⟨.success [] t, []⟩ := by
  rcases (Runs.of_step hr).orElse_cases with ⟨m, x, l, hfirst, rfl⟩ | ⟨x, l, o, l', hfirst, hsecond, rfl⟩
  · have hchar := hfirst.eq_direct rfl
    cases ht : t.chars with
    | nil =>
      simp [Step.char, Text.uncons?_eq_none_iff.2 ht] at hchar
    | cons c rest =>
      rw [Step.char_of_cons ht] at hchar
      split at hchar
      · cases hchar
        exact .inl ⟨c, rest, rfl, rfl⟩
      · cases hchar
  · obtain rfl : l = [] := congrArg Run.log (hfirst.eq_direct rfl)
    cases hsecond.eq_direct rfl
    exact .inr rfl

/-- The runs of the parser for a letter or nothing end, and leave an end part of the text. -/
theorem orderly_letterOrNothing : Store.empty.Orderly letterOrNothing := by
  refine ⟨fun t => ?_, fun t x m l hr => ?_, fun t m l hr => ?_⟩
  · have hletter : Store.empty.step (Store.empty.depthFor t) .anyLetter t =
        some ⟨Step.char Char.isAlpha t, []⟩ := step_of_direct rfl
    have hempty : Store.empty.step (Store.empty.depthFor t) .empty t = some ⟨.success [] t, []⟩ :=
      step_of_direct rfl
    rw [Store.run, letterOrNothing, step_orElse, Step.orElse, hletter, hempty]
    cases hok : (Step.char Char.isAlpha t).ok <;> simp [hok]
  · rcases run_letterOrNothing hr with ⟨c, rest, ht, heq⟩ | heq
    · cases heq
      exact ⟨[c], ht.symm⟩
    · cases heq
      exact List.suffix_rfl
  · rcases run_letterOrNothing hr with ⟨c, rest, ht, heq⟩ | heq
    · cases heq
      simp at ht
    · cases heq
      rfl

/-- Loops over the parser for a letter or nothing take the letters at the start, although it could
take nothing for ever. -/
theorem run_repeats_letters :
    Store.empty.Orderly letterOrNothing ∧ ∃ first many once,
      Store.empty.Repeats letterOrNothing (.ofList ['a', 'b', '1']) first many once ∧
        many.outcome = .success ['a', 'b'] (.ofList ['1']) := by
  obtain ⟨first, many, once, h⟩ := run_repeats orderly_letterOrNothing (.ofList ['a', 'b', '1'])
  have hdepth := Store.empty.size_lt_depthFor (.ofList ['a', 'b', '1'])
  have hsize : (Text.ofList ['a', 'b', '1']).size = 3 := rfl
  have hloop : Store.empty.step 3 (.many0 letterOrNothing) (.ofList ['a', 'b', '1']) =
      some ⟨.success ['a', 'b'] (.ofList ['1']), []⟩ := rfl
  cases h.run_many.symm.trans (step_mono (by omega) hloop)
  exact ⟨orderly_letterOrNothing, first, _, once, h, rfl⟩

end Descent
