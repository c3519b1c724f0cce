import Descent.Grammar.Build
import Descent.Proofs.Runs
import Descent.Session.Callback

/-!
# Laws of the combinators

Parsers that are put together in different ways can do the same. Sequences and choices may be grouped
at will, the optional combinations and brackets are short for sequences and choices, and a sequence
distributes over a choice of continuations. A choice of beginnings is different: when it has succeeded
it is not tried again, so that it can be spread over a continuation but not gathered
(`run_regroups`). Nothing is asked of the parsers, because a sequence that fails hands back its text
whatever its parts hand back, and a choice hands back what its second part does.
-/

namespace Descent

namespace Step

variable {keep : List Char → List Char → List Char}

/-- Sequences may be grouped at will if their matches may. -/
theorem sequence_assoc (hkeep : ∀ m n o, keep (keep m n) o = keep m (keep n o)) (a b c : Step) :
    sequence keep (sequence keep a b) c = sequence keep a (sequence keep b c) := by
  funext t
  cases ha : a t with
  | none => simp [sequence, ha]
  | some first =>
    obtain ⟨o, l⟩ := first
    cases o with
    | failure x => simp [sequence, ha]
    | success m x =>
      cases hb : b x with
      | none => simp [sequence, ha, hb]
      | some second =>
        obtain ⟨o', l'⟩ := second
        cases o' with
        | failure y => simp [sequence, ha, hb]
        | success n y =>
          cases hc : c y with
          | none => simp [sequence, ha, hb, hc]
          | some third =>
            obtain ⟨o'', l''⟩ := third
            cases o'' <;> simp [sequence, ha, hb, hc, hkeep]

/-- Choices may be grouped at will. -/
theorem orElse_assoc (a b c : Step) : orElse (orElse a b) c = orElse a (orElse b c) := by
  funext t
  cases ha : a t with
  | none => simp [orElse, ha]
  | some first =>
    obtain ⟨o, l⟩ := first
    cases o with
    | success m x => simp [orElse, Outcome.ok, ha]
    | failure x =>
      cases hb : b t with
      | none => simp [orElse, Outcome.ok, ha, hb]
      | some second =>
        obtain ⟨o', l'⟩ := second
        cases o' with
        | success n y => simp [orElse, Outcome.ok, ha, hb]
        | failure y => cases hc : c t <;> simp [orElse, Outcome.ok, ha, hb, hc]

/-- A choice of continuations comes to the same as a choice of sequences. Only the log can differ,
because the beginning is run again for the second sequence. -/
theorem outcome_sequence_orElse (a b c : Step) (t : Text) :
    (sequence keep a (orElse b c) t).map Run.outcome =
      (orElse (sequence keep a b) (sequence keep a c) t).map Run.outcome := by
  cases ha : a t with
  | none => simp [sequence, orElse, ha]
  | some first =>
    obtain ⟨o, l⟩ := first
    cases o with
    | failure x => simp [sequence, orElse, Outcome.ok, ha]
    | success m x =>
      cases hb : b x with
      | none => simp [sequence, orElse, ha, hb]
      | some second =>
        obtain ⟨o', l'⟩ := second
        cases o' with
        | success n y => simp [sequence, orElse, Outcome.ok, ha, hb]
        | failure y =>
          cases hc : c x with
          | none => simp [sequence, orElse, Outcome.ok, ha, hb, hc]
          | some third =>
            obtain ⟨o'', l''⟩ := third
            cases o'' <;> simp [sequence, orElse, Outcome.ok, ha, hb, hc]

/-- A sequence that succeeds is made of two steps that do. -/
theorem sequence_success {a b : Step} {t x : Text} {m : List Char} {l : Log}
    (h : sequence keep a b t = some ⟨.success m x, l⟩) : ∃ n y k o k',
      a t = some ⟨.success n y, k⟩ ∧ b y = some ⟨.success o x, k'⟩ ∧ m = keep n o ∧ l = k ++ k' := by
  rcases sequence_cases h with ⟨_, _, _, hr⟩ | ⟨_, _, _, _, _, _, _, hr⟩ |
    ⟨n, y, k, o, _, k', ha, hb, hr⟩
  · cases hr
  · cases hr
  · cases hr
    exact ⟨n, y, k, o, k', ha, hb, rfl, rfl⟩

/-- A choice of beginnings that succeeds with a continuation can be spread over it: the sequence with
the beginning that was chosen succeeds, and one with an earlier beginning fails with it. -/
theorem orElse_sequence {a b c : Step} {t x : Text} {m : List Char} {l : Log}
    (h : sequence keep (orElse a b) c t = some ⟨.success m x, l⟩) :
    ∃ l', orElse (sequence keep a c) (sequence keep b c) t = some ⟨.success m x, l'⟩ := by
  obtain ⟨n, y, k, o, k', hfirst, hc, rfl, rfl⟩ := sequence_success h
  rcases orElse_cases hfirst with ⟨_, _, _, ha, hr⟩ | ⟨w, i, _, j, ha, hb, hr⟩
  · cases hr
    exact ⟨k ++ k', by simp [orElse, sequence, Outcome.ok, ha, hc]⟩
  · cases hr
    exact ⟨i ++ (j ++ k'), by simp [orElse, sequence, Outcome.ok, ha, hb, hc]⟩

end Step

/-- A sequence is one of steps. -/
theorem Store.step_shiftRight (s : Store) (depth : Nat) (a b : Parser) : s.step depth (a >>> b) =
    Step.sequence (· ++ ·) (s.step depth a) (s.step depth b) :=
  funext fun _ => step_of_joins (.andThen a b)

open Store

/-- The laws of the combinators, for any parsers, with any functions written by hand in them, on any
text. Parsers that are equal here give the same result with the same log, or both none; where a
beginning is shared by two sequences, the log is left out. The last law goes one way only. -/
theorem run_regroups (s : Store) (a b c : Parser) (depth : Nat) (t : Text) :
    let run (p : Parser) := s.step depth p t
    run ((a >>> b) >>> c) = run (a >>> (b >>> c)) ∧
    run ((a ||| b) ||| c) = run (a ||| (b ||| c)) ∧
    (run (a >>> (b ||| c))).map Run.outcome = (run ((a >>> b) ||| (a >>> c))).map Run.outcome ∧
    run (.thenOptional a b) = run (a >>> (b ||| .empty)) ∧
    run (.optionalThen a b) = run ((a ||| .empty) >>> b) ∧
    run (.between b a c) = run (a >>> b >>> c) ∧
    run (.thenIgnore a (.thenIgnore b c)) = run (.thenIgnore (.thenIgnore a b) c) ∧
    run (.ignoreThen a (.ignoreThen b c)) = run (.ignoreThen (.ignoreThen a b) c) ∧
    ∀ m x l, run ((a ||| b) >>> c) = some ⟨.success m x, l⟩ →
      ∃ l', run ((a >>> c) ||| (b >>> c)) = some ⟨.success m x, l'⟩ := by
  intro run
  have hkeep (p q : Parser) : s.step depth (.thenIgnore p q) =
      Step.sequence (fun m _ => m) (s.step depth p) (s.step depth q) :=
    funext fun _ => step_of_joins (.thenIgnore p q)
  have hdrop (p q : Parser) : s.step depth (.ignoreThen p q) =
      Step.sequence (fun _ m => m) (s.step depth p) (s.step depth q) :=
    funext fun _ => step_of_joins (.ignoreThen p q)
  have hor (p q : Parser) : s.step depth (p ||| q) =
      Step.orElse (s.step depth p) (s.step depth q) :=
    funext fun _ => step_orElse
  refine ⟨?_, ?_, ?_, step_of_expand rfl, step_of_expand rfl, step_of_expand rfl, ?_, ?_, ?_⟩
  · simp only [run, step_shiftRight, Step.sequence_assoc List.append_assoc]
  · simp only [run, hor, Step.orElse_assoc]
  · simp only [run, step_shiftRight, hor]
    exact Step.outcome_sequence_orElse ..
  · simp only [run, hkeep]
    rw [Step.sequence_assoc fun _ _ _ => rfl]
  · simp only [run, hdrop]
    rw [Step.sequence_assoc fun _ _ _ => rfl]
  · simp only [run, step_shiftRight, hor]
    exact fun m x l => Step.orElse_sequence

/-- A beginning that fails and hands back something else than its text makes no difference. -/
theorem run_regroups_failTail :
    let a : Parser := .satisfy Callback.failTail
    let t : Text := .ofList ['x', 'y']
    Store.empty.step 0 ((a ||| .one 'x') >>> .one 'y') t =
        some ⟨.success ['x', 'y'] (.ofList []), []⟩ ∧
      ∃ l, Store.empty.step 0 ((a >>> .one 'y') ||| (.one 'x' >>> .one 'y')) t =
        some ⟨.success ['x', 'y'] (.ofList []), l⟩ := by
  intro a t
  have h : Store.empty.step 0 ((a ||| .one 'x') >>> .one 'y') t =
      some ⟨.success ['x', 'y'] (.ofList []), []⟩ := rfl
  obtain ⟨_, _, _, _, _, _, _, _, hspread⟩ :=
    run_regroups Store.empty a (.one 'x') (.one 'y') 0 t
  exact ⟨h, hspread _ _ _ h⟩

/-- The choice takes the shorter text, and does not come back to the longer one. -/
example :
    let a : Parser := .literal ['a']
    let b : Parser := .literal ['a', 'b']
    let t : Text := .ofList ['a', 'b', 'c']
    Store.empty.step 0 ((a ||| b) >>> .one 'c') t = some ⟨.failure t, []⟩ ∧
      Store.empty.step 0 ((a >>> .one 'c') ||| (b >>> .one 'c')) t =
        some ⟨.success ['a', 'b', 'c'] (.ofList []), []⟩ := ⟨rfl, rfl⟩

end Descent
