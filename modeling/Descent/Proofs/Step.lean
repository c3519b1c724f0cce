import Descent.Parser.Step

/-!
# What a step does, case by case

Each combination of steps is unfolded once, into the ways in which it can end. The loops gather
matches and events in reverse while they run; here they get their recursive readings. Both are what
proofs about parsers use in place of the definitions.
-/

namespace Descent

namespace Step

variable {a b body inner opening closing : Step} {t : Text} {r : Run}

/-- A character is taken if it is accepted. -/
theorem char_of_cons {accept : Char → Bool} {c : Char} {rest : List Char}
    (ht : t.chars = c :: rest) :
    char accept t = if accept c then .success [c] (.ofList rest) else .failure t := by
  have huncons : t.uncons? = some (c, .ofList rest) := Text.uncons?_eq_some_iff.2 ht
  simp [char, huncons]

/-- A choice ends with the success of the first step, or with whatever the second one says after the
first has failed. -/
theorem orElse_cases (h : orElse a b t = some r) :
    (∃ m x l, a t = some ⟨.success m x, l⟩ ∧ r = ⟨.success m x, l⟩) ∨
    (∃ x l o l', a t = some ⟨.failure x, l⟩ ∧ b t = some ⟨o, l'⟩ ∧ r = ⟨o, l ++ l'⟩) := by
  obtain ⟨⟨o, l⟩, ha, h⟩ := Option.bind_eq_some_iff.1 h
  cases o with
  | success m x => exact .inl ⟨m, x, l, ha, (Option.some.inj h).symm⟩
  | failure x =>
    obtain ⟨⟨o', l'⟩, hb, h⟩ := Option.bind_eq_some_iff.1 h
    exact .inr ⟨x, l, o', l', ha, hb, (Option.some.inj h).symm⟩

/-- A sequence fails with either step, on the whole text, and otherwise joins the matches. -/
theorem sequence_cases {keep : List Char → List Char → List Char}
    (h : sequence keep a b t = some r) :
    (∃ x l, a t = some ⟨.failure x, l⟩ ∧ r = ⟨.failure t, l⟩) ∨
    (∃ m x l y l', a t = some ⟨.success m x, l⟩ ∧ b x = some ⟨.failure y, l'⟩ ∧
      r = ⟨.failure t, l ++ l'⟩) ∨
    (∃ m x l n y l', a t = some ⟨.success m x, l⟩ ∧ b x = some ⟨.success n y, l'⟩ ∧
      r = ⟨.success (keep m n) y, l ++ l'⟩) := by
  obtain ⟨⟨o, l⟩, ha, h⟩ := Option.bind_eq_some_iff.1 h
  cases o with
  | failure x => exact .inl ⟨x, l, ha, (Option.some.inj h).symm⟩
  | success m x =>
    obtain ⟨⟨o', l'⟩, hb, h⟩ := Option.bind_eq_some_iff.1 h
    cases o' with
    | failure y => exact .inr (.inl ⟨m, x, l, y, l', ha, hb, (Option.some.inj h).symm⟩)
    | success n y =>
      exact .inr (.inr ⟨m, x, l, n, y, l', ha, hb, (Option.some.inj h).symm⟩)

/-- An optional continuation is one with the empty text as its second choice. -/
theorem thenOptional_eq (a b : Step) :
    thenOptional a b = sequence (· ++ ·) a (orElse b (quiet (.success []))) := by
  funext t
  cases ha : a t with
  | none => simp [thenOptional, sequence, ha]
  | some first =>
    obtain ⟨o, l⟩ := first
    cases o with
    | failure x => simp [thenOptional, sequence, ha]
    | success m x =>
      cases hb : b x with
      | none => simp [thenOptional, sequence, orElse, ha, hb]
      | some second =>
        obtain ⟨o', l'⟩ := second
        cases o' <;> simp [thenOptional, sequence, orElse, quiet, Outcome.ok, ha, hb]

/-- An optional lead is one with the empty text as its second choice. -/
theorem optionalThen_eq (a b : Step) :
    optionalThen a b = sequence (· ++ ·) (orElse a (quiet (.success []))) b := by
  funext t
  cases ha : a t with
  | none => simp [optionalThen, sequence, orElse, ha]
  | some first =>
    obtain ⟨o, l⟩ := first
    cases o with
    | failure x => simp [optionalThen, sequence, orElse, quiet, Outcome.ok, ha]
    | success m x => simp [optionalThen, sequence, orElse, Outcome.ok, ha]

/-- Brackets are two sequences: the opening with the inner step, and both with the closing. -/
theorem between_eq (inner opening closing : Step) :
    between inner opening closing =
      sequence (· ++ ·) (sequence (· ++ ·) opening inner) closing := by
  funext t
  cases ho : opening t with
  | none => simp [between, sequence, ho]
  | some left =>
    obtain ⟨o, l⟩ := left
    cases o with
    | failure x => simp [between, sequence, ho]
    | success m x =>
      cases hi : inner x with
      | none => simp [between, sequence, ho, hi]
      | some middle =>
        obtain ⟨o', l'⟩ := middle
        cases o' <;> simp [between, sequence, ho, hi]

/-- The body of a rule decides, and two events stand around its own. -/
theorem rule_cases {name : String} (h : rule name body t = some r) :
    ∃ o l, body t = some ⟨o, l⟩ ∧
      r = ⟨o, .enterRule name t.size :: l ++ [.exitRule name o.ok (o.consumed t)]⟩ := by
  obtain ⟨⟨o, l⟩, hb, h⟩ := Option.bind_eq_some_iff.1 h
  exact ⟨o, l, hb, (Option.some.inj h).symm⟩

/-! ## Loops -/

/-- What a loop has gathered before only stands in front of what it gathers from there on. -/
theorem repeatFrom_eq_map (limit : Nat) (past : Repetition) :
    repeatFrom body limit past = (repeatFrom body limit (.start past.rest)).map fun r =>
      ⟨past.count + r.count, r.matched ++ past.matched, r.rest, r.log ++ past.log⟩ := by
  induction limit generalizing past with
  | zero => rfl
  | succ limit ih =>
    have hrest : (Repetition.start past.rest).rest = past.rest := rfl
    simp only [repeatFrom, hrest]
    cases hb : body past.rest with
    | none => rfl
    | some run =>
      obtain ⟨o, l⟩ := run
      cases o with
      | failure x => simp [Repetition.start]
      | success m x =>
        by_cases hstop : x.size = 0 ∨ x.size = past.rest.size
        · simp [hstop, Repetition.add, Repetition.start]
        · simp only [hstop, if_false]
          rw [ih (past.add m x l), ih ((Repetition.start past.rest).add m x l)]
          simp only [Repetition.add, Repetition.start, Option.map_map]
          congr 1
          funext r
          simp [Nat.add_assoc]

/-- A loop whose body fails at once takes nothing. -/
theorem many0_stop {x : Text} {l : Log} (limit : Nat) (hb : body t = some ⟨.failure x, l⟩) :
    many0 (limit + 1) body t = some ⟨.success [] t, l⟩ := by
  simp [many0, repeatFrom, Repetition.start, Repetition.succeed, hb]

/-- A loop ends with a repetition that leaves nothing, or leaves as much as it has found. -/
theorem many0_last {m : List Char} {x : Text} {l : Log} (limit : Nat)
    (hb : body t = some ⟨.success m x, l⟩) (hx : x.size = 0 ∨ x.size = t.size) :
    many0 (limit + 1) body t = some ⟨.success m x, l⟩ := by
  simp [many0, repeatFrom, Repetition.start, Repetition.add, Repetition.succeed, hb, hx]

/-- After any other repetition a loop goes on as if it had just begun. -/
theorem many0_more {m n : List Char} {x y : Text} {l l' : Log} {limit : Nat}
    (hb : body t = some ⟨.success m x, l⟩) (hx : ¬(x.size = 0 ∨ x.size = t.size))
    (hrest : many0 limit body x = some ⟨.success n y, l'⟩) :
    many0 (limit + 1) body t = some ⟨.success (m ++ n) y, l ++ l'⟩ := by
  obtain ⟨past, hpast, h⟩ := Option.bind_eq_some_iff.1 hrest
  cases Option.some.inj h
  simp only [many0, repeatFrom, Repetition.start, hb, hx, if_false]
  rw [repeatFrom_eq_map]
  simp [Repetition.add, Repetition.succeed, hpast]

/-- A loop that comes to its end takes nothing, or ends with its first repetition, or goes on after
it. -/
theorem many0_cases {limit : Nat} (h : many0 (limit + 1) body t = some r) :
    (∃ x l, body t = some ⟨.failure x, l⟩ ∧ r = ⟨.success [] t, l⟩) ∨
    (∃ m x l, body t = some ⟨.success m x, l⟩ ∧ (x.size = 0 ∨ x.size = t.size) ∧
      r = ⟨.success m x, l⟩) ∨
    (∃ m x l n y l', body t = some ⟨.success m x, l⟩ ∧ ¬(x.size = 0 ∨ x.size = t.size) ∧
      many0 limit body x = some ⟨.success n y, l'⟩ ∧ r = ⟨.success (m ++ n) y, l ++ l'⟩) := by
  cases hb : body t with
  | none => simp [many0, repeatFrom, Repetition.start, hb] at h
  | some first =>
    obtain ⟨o, l⟩ := first
    cases o with
    | failure x =>
      rw [many0_stop limit hb] at h
      exact .inl ⟨x, l, rfl, (Option.some.inj h).symm⟩
    | success m x =>
      by_cases hx : x.size = 0 ∨ x.size = t.size
      · rw [many0_last limit hb hx] at h
        exact .inr (.inl ⟨m, x, l, rfl, hx, (Option.some.inj h).symm⟩)
      · cases hfrom : repeatFrom body limit (.start x) with
        | none =>
          simp only [many0, repeatFrom, Repetition.start, hb, hx, if_false] at h
          rw [repeatFrom_eq_map] at h
          simp [Repetition.add, hfrom] at h
        | some past =>
          have hrest : many0 limit body x = some past.succeed := by simp [many0, hfrom]
          rw [many0_more hb hx hrest] at h
          exact .inr (.inr ⟨m, x, l, _, _, _, rfl, hx, hrest, (Option.some.inj h).symm⟩)

/-- A loop that must go round once fails where its body fails. -/
theorem many1_of_failure {x : Text} {l : Log} (limit : Nat)
    (hb : body t = some ⟨.failure x, l⟩) : many1 (limit + 1) body t = some ⟨.failure t, l⟩ := by
  simp [many1, repeatFrom, Repetition.start, Repetition.fail, hb]

/-- A loop that must go round once is like any loop where its body succeeds. -/
theorem many1_of_success {m : List Char} {x : Text} {l : Log} (limit : Nat)
    (hb : body t = some ⟨.success m x, l⟩) :
    many1 (limit + 1) body t = many0 (limit + 1) body t := by
  by_cases hx : x.size = 0 ∨ x.size = t.size
  · simp [many1, many0, repeatFrom, Repetition.start, Repetition.add, hb, hx]
  · simp only [many1, many0, repeatFrom, Repetition.start, hb, hx, if_false]
    rw [repeatFrom_eq_map]
    simp only [Repetition.add, Option.bind_eq_bind, Option.bind_map, Function.comp_def]
    simp

/-- A loop that must go round once depends on its body's first answer. -/
theorem many1_cases {limit : Nat} (h : many1 limit body t = some r) : ∃ k, limit = k + 1 ∧
    ((∃ x l, body t = some ⟨.failure x, l⟩ ∧ r = ⟨.failure t, l⟩) ∨
      (∃ m x l, body t = some ⟨.success m x, l⟩ ∧ many0 (k + 1) body t = some r)) := by
  cases limit with
  | zero => simp [many1, repeatFrom] at h
  | succ k =>
    refine ⟨k, rfl, ?_⟩
    cases hb : body t with
    | none => simp [many1, repeatFrom, Repetition.start, hb] at h
    | some first =>
      obtain ⟨o, l⟩ := first
      cases o with
      | failure x =>
        rw [many1_of_failure k hb] at h
        exact .inl ⟨x, l, rfl, (Option.some.inj h).symm⟩
      | success m x =>
        rw [many1_of_success k hb] at h
        exact .inr ⟨m, x, l, rfl, h⟩

/-- What a count has gathered before only stands in front of what it gathers from there on. -/
theorem exactlyFrom_eq (start : Text) (count : Nat) (past : Repetition) :
    exactlyFrom body start count past = (exactly count body past.rest).bind fun r =>
      match r.outcome with
      | .failure _ => some (past.fail start r.log)
      | .success m x => some (past.add m x r.log).succeed := by
  induction count generalizing start past with
  | zero => simp [exactly, exactlyFrom, Repetition.start, Repetition.add, Repetition.succeed]
  | succ count ih =>
    have hrest : (Repetition.start past.rest).rest = past.rest := rfl
    simp only [exactly, exactlyFrom, hrest]
    cases hb : body past.rest with
    | none => rfl
    | some first =>
      obtain ⟨o, l⟩ := first
      cases o with
      | failure x => simp [Repetition.start, Repetition.fail]
      | success m x =>
        simp only [ih]
        have hx (r : Repetition) : (r.add m x l).rest = x := rfl
        rw [hx, hx]
        cases exactly count body x with
        | none => rfl
        | some second =>
          obtain ⟨o', l'⟩ := second
          cases o' <;> simp [Repetition.start, Repetition.add, Repetition.fail, Repetition.succeed]

/-- A greater count is one repetition, and then a count of those that are left. -/
theorem exactly_succ (count : Nat) (body : Step) :
    exactly (count + 1) body = sequence (· ++ ·) body (exactly count body) := by
  funext t
  have hrest : (Repetition.start t).rest = t := rfl
  cases hb : body t with
  | none => simp [exactly, exactlyFrom, sequence, hrest, hb]
  | some first =>
    obtain ⟨o, l⟩ := first
    cases o with
    | failure x => simp [exactly, exactlyFrom, sequence, Repetition.start, Repetition.fail, hb]
    | success m x =>
      have hx : ((Repetition.start t).add m x l).rest = x := rfl
      rw [exactly, exactlyFrom, hrest, hb]
      simp only [exactlyFrom_eq, hx]
      cases hn : exactly count body x with
      | none => simp [sequence, hb, hn]
      | some second =>
        obtain ⟨o', l'⟩ := second
        cases o' <;> simp [sequence, Repetition.start, Repetition.add, Repetition.fail,
          Repetition.succeed, hb, hn]

/-! ## Steps that answer more often -/

/-- Wherever the first step has an answer, the second has the same. -/
def Below (f g : Step) : Prop := ∀ {t r}, f t = some r → g t = some r

/-- On the texts of one kind, wherever the first step has an answer, the second has the same. -/
def BelowOn (kind : Text → Prop) (f g : Step) : Prop :=
  ∀ t r, kind t → f t = some r → g t = some r

variable {a' b' body' : Step} {limit limit' : Nat} {kind : Text → Prop}

/-- What answers more often does so on texts of every kind. -/
theorem Below.belowOn (h : Below a b) (kind : Text → Prop) : BelowOn kind a b :=
  fun _ _ _ => h

/-- A choice of steps that answer more often answers more often. -/
theorem orElse_belowOn (ha : BelowOn kind a a') (hb : BelowOn kind b b') :
    BelowOn kind (orElse a b) (orElse a' b') := by
  intro t r ht h
  rcases orElse_cases h with ⟨m, x, l, hA, rfl⟩ | ⟨x, l, o, l', hA, hB, rfl⟩
  · simp [orElse, ha t _ ht hA, Outcome.ok]
  · simp [orElse, ha t _ ht hA, hb t _ ht hB, Outcome.ok]

/-- A sequence of steps that answer more often answers more often, if the second step starts on texts
of the same kind as the first. -/
theorem sequence_belowOn {keep : List Char → List Char → List Char}
    (hkind : ∀ t m x l, kind t → a t = some ⟨.success m x, l⟩ → kind x)
    (ha : BelowOn kind a a') (hb : BelowOn kind b b') :
    BelowOn kind (sequence keep a b) (sequence keep a' b') := by
  intro t r ht h
  rcases sequence_cases h with ⟨x, l, hA, rfl⟩ | ⟨m, x, l, y, l', hA, hB, rfl⟩ |
    ⟨m, x, l, n, y, l', hA, hB, rfl⟩
  · simp [sequence, ha t _ ht hA]
  · simp [sequence, ha t _ ht hA, hb x _ (hkind t m x l ht hA) hB]
  · simp [sequence, ha t _ ht hA, hb x _ (hkind t m x l ht hA) hB]

/-- The texts may be all there are. -/
theorem orElse_below (ha : Below a a') (hb : Below b b') : Below (orElse a b) (orElse a' b') :=
  orElse_belowOn (ha.belowOn fun _ => True) (hb.belowOn _) _ _ trivial

/-- Where each part answers more often, so does the sequence. -/
theorem sequence_below {keep : List Char → List Char → List Char} (ha : Below a a')
    (hb : Below b b') : Below (sequence keep a b) (sequence keep a' b') :=
  sequence_belowOn (fun _ _ _ _ _ _ => trivial) (ha.belowOn fun _ => True) (hb.belowOn _) _ _ trivial

/-- A loop that may go on for longer answers more often. -/
theorem many0_below (hb : Below body body') (hlimit : limit ≤ limit') :
    Below (many0 limit body) (many0 limit' body') := by
  intro t r h
  induction limit generalizing limit' t r with
  | zero => simp [many0, repeatFrom] at h
  | succ limit ih =>
    obtain ⟨k, rfl⟩ : ∃ k, limit' = k + 1 := ⟨limit' - 1, by omega⟩
    rcases many0_cases h with ⟨x, l, hB, rfl⟩ | ⟨m, x, l, hB, hx, rfl⟩ |
      ⟨m, x, l, n, y, l', hB, hx, hrest, rfl⟩
    · exact many0_stop k (hb hB)
    · exact many0_last k (hb hB) hx
    · exact many0_more (hb hB) hx (ih (by omega) hrest)

/-- A loop that must go round once, and may go on for longer, answers more often. -/
theorem many1_below (hb : Below body body') (hlimit : limit ≤ limit') :
    Below (many1 limit body) (many1 limit' body') := by
  intro t r h
  obtain ⟨k, rfl, hcases⟩ := many1_cases h
  obtain ⟨k', rfl⟩ : ∃ k', limit' = k' + 1 := ⟨limit' - 1, by omega⟩
  rcases hcases with ⟨x, l, hB, rfl⟩ | ⟨m, x, l, hB, hloop⟩
  · exact many1_of_failure k' (hb hB)
  · rw [many1_of_success k' (hb hB)]
    exact many0_below hb hlimit hloop

/-- The events around a rule change nothing about this. -/
theorem rule_belowOn (name : String) (hb : BelowOn kind body body') :
    BelowOn kind (rule name body) (rule name body') := by
  intro t r ht h
  obtain ⟨o, l, hB, rfl⟩ := rule_cases h
  simp [rule, hb t _ ht hB]

/-- On all texts, a step with the events of a rule around it answers more often if the step does. -/
theorem rule_below (name : String) (hb : Below body body') :
    Below (rule name body) (rule name body') :=
  rule_belowOn name (hb.belowOn fun _ => True) _ _ trivial

end Step

end Descent
