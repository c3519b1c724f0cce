import Descent.Proofs.Algebra
import Descent.Proofs.Depth
import Descent.Sequence
import Descent.Session.Combine

/-!
# Sequences with a value

There are three ways to run parsers one after the other: a sequence that makes a value of their
matches, parsers joined two by two, and a count of one and the same parser. All three run each parser
on what the one before has left, and give up with the first that fails
(`Sequence.run_agrees`). How the parsers are bracketed when they are joined makes no difference, and
none of the three asks them to hand back their text when they fail.
-/

namespace Descent

namespace Parser

/-- A parser joins those of a list, first to last, bracketed in some way. -/
inductive Chain : List Parser → Parser → Prop
  /-- A single parser needs no joining. -/
  | one (p : Parser) : Chain [p] p
  /-- A bracket around a front part of the list, and one around the others. -/
  | andThen {ps qs a b} (ha : Chain ps a) (hb : Chain qs b) : Chain (ps ++ qs) (a >>> b)

/-- The parsers joined so that each is followed by a bracket around all after it. -/
def join : Parser → List Parser → Parser
  | p, [] => p
  | p, q :: ps => p >>> join q ps

end Parser

namespace Store

variable {s : Store} {p q a c : Parser} {ps qs : List Parser} {t : Text} {r : Run} {depth : Nat}

/-! ## Brackets -/

/-- The brackets of two joined lists can be put together. -/
theorem step_join_append (p q : Parser) (ps qs : List Parser) :
    s.step depth (Parser.join p ps >>> Parser.join q qs) =
      s.step depth (Parser.join p (ps ++ q :: qs)) := by
  induction ps generalizing p with
  | nil => rfl
  | cons first ps ih =>
    rw [List.cons_append, Parser.join, Parser.join, step_shiftRight, step_shiftRight,
      Step.sequence_assoc List.append_assoc, ← step_shiftRight, ih, ← step_shiftRight]

/-- All brackets do the same. -/
theorem step_of_chain (s : Store) (hc : Parser.Chain ps c) : ∃ p rest, ps = p :: rest ∧
    ∀ depth, s.step depth c = s.step depth (Parser.join p rest) := by
  induction hc with
  | one p => exact ⟨p, [], rfl, fun _ => rfl⟩
  | @andThen ps qs a b _ _ iha ihb =>
    obtain ⟨p, ps, rfl, ha⟩ := iha
    obtain ⟨q, qs, rfl, hb⟩ := ihb
    refine ⟨p, ps ++ q :: qs, rfl, fun depth => ?_⟩
    rw [← step_join_append, step_shiftRight, step_shiftRight, ha, hb]

/-! ## Parsers in a row -/

/-- What comes of running parsers one after the other, each on what the one before has left: their
matches and the rest of the text, or nothing once one of them has failed; and their log. -/
inductive Successive (s : Store) :
    List Parser → Text → Option (List (List Char) × Text) → Log → Prop
  /-- Nothing is to be run. -/
  | nil (t : Text) : Successive s [] t (some ([], t)) []
  /-- The first parser fails. -/
  | fails {p ps t x l} (hp : s.Runs p t ⟨.failure x, l⟩) : Successive s (p :: ps) t none l
  /-- The first parser succeeds, and a later one fails. -/
  | failsLate {p ps t m x l l'} (hp : s.Runs p t ⟨.success m x, l⟩)
      (hps : Successive s ps x none l') : Successive s (p :: ps) t none (l ++ l')
  /-- All parsers succeed. -/
  | cons {p ps t m x l ms y l'} (hp : s.Runs p t ⟨.success m x, l⟩)
      (hps : Successive s ps x (some (ms, y)) l') :
      Successive s (p :: ps) t (some (m :: ms, y)) (l ++ l')

/-- An outcome is the matches put together and the rest, or a failure if there are none. -/
def Gathers : Option (List (List Char) × Text) → Outcome → Prop
  | some (ms, rest), o => o = .success ms.flatten rest
  | none, o => o.ok = false

/-- One parser does what others do one after the other, with the same log. -/
structure StandsFor (s : Store) (c : Parser) (ps : List Parser) : Prop where
  runs : ∀ t result l, s.Successive ps t result l → ∃ o, s.Runs c t ⟨o, l⟩ ∧ Gathers result o
  successive : ∀ t o l, s.Runs c t ⟨o, l⟩ → ∃ result, s.Successive ps t result l

/-- The empty text stands for no parser. -/
theorem StandsFor.empty (s : Store) : s.StandsFor .empty [] where
  runs t result l h := by
    cases h
    exact ⟨_, .direct t rfl, rfl⟩
  successive t o l h := by
    cases h.eq_direct rfl
    exact ⟨_, .nil t⟩

/-- A parser stands for itself. -/
theorem StandsFor.one (s : Store) (p : Parser) : s.StandsFor p [p] where
  runs t result l h := by
    cases h with
    | fails hp => exact ⟨_, hp, rfl⟩
    | failsLate _ hnil => cases hnil
    | cons hp hnil =>
      cases hnil
      rw [List.append_nil]
      exact ⟨_, hp, by simp [Gathers]⟩
  successive t o l h := by
    cases o with
    | failure x => exact ⟨_, .fails h⟩
    | success m x =>
      have hall := Successive.cons h (.nil x)
      rw [List.append_nil] at hall
      exact ⟨_, hall⟩

/-- A parser joined with one that stands for others stands for itself and the others. -/
theorem StandsFor.cons (h : s.StandsFor c ps) (p : Parser) : s.StandsFor (p >>> c) (p :: ps) where
  runs t result l hall := by
    cases hall with
    | fails hp => exact ⟨_, .breaks (.andThen p c) hp, rfl⟩
    | failsLate hp hps =>
      obtain ⟨o, hc, ho⟩ := h.runs _ _ _ hps
      cases o with
      | success => cases ho
      | failure => exact ⟨_, .breaksLate (.andThen p c) hp hc, rfl⟩
    | cons hp hps =>
      obtain ⟨o, hc, rfl⟩ := h.runs _ _ _ hps
      exact ⟨_, .joins (.andThen p c) hp hc, by simp [Gathers]⟩
  successive t o l hrun := by
    rcases hrun.joins_cases (.andThen p c) with ⟨x, i, hp, hr⟩ | ⟨m, x, i, y, k, hp, hc, hr⟩ |
      ⟨m, x, i, n, y, k, hp, hc, hr⟩
    · cases hr
      exact ⟨_, .fails hp⟩
    all_goals
      cases hr
      obtain ⟨result, hps⟩ := h.successive _ _ _ hc
      cases result with
      | none => exact ⟨_, .failsLate hp hps⟩
      | some found => exact ⟨_, .cons hp hps⟩

/-- What stands for parsers can be replaced by what has the same steps. -/
theorem StandsFor.congr (h : s.StandsFor c ps) (hsame : ∀ depth t, s.step depth a t = s.step depth c t) :
    s.StandsFor a ps := by
  have hruns (t : Text) (r : Run) : s.Runs a t r ↔ s.Runs c t r := by simp only [runs_iff, hsame]
  refine ⟨fun t result l hall => ?_, fun t o l hrun => h.successive t o l ((hruns t _).1 hrun)⟩
  obtain ⟨o, hrun, ho⟩ := h.runs t result l hall
  exact ⟨o, (hruns t _).2 hrun, ho⟩

/-- Joined parsers stand for those that are joined, however they are bracketed. -/
theorem StandsFor.of_chain (s : Store) (hc : Parser.Chain ps c) : s.StandsFor c ps := by
  have hjoin (p : Parser) (rest : List Parser) : s.StandsFor (Parser.join p rest) (p :: rest) := by
    induction rest generalizing p with
    | nil => exact .one s p
    | cons q rest ih => exact (ih q).cons p
  obtain ⟨p, rest, rfl, hsame⟩ := s.step_of_chain hc
  exact (hjoin p rest).congr fun depth t => by rw [hsame]

/-- A count stands for as many copies of its body. -/
theorem StandsFor.exactly (s : Store) (n : Nat) (p : Parser) :
    s.StandsFor (.exactly n p) (List.replicate n p) := by
  induction n with
  | zero => exact (StandsFor.empty s).congr fun _ _ => step_of_expand rfl
  | succ n ih => exact (ih.cons p).congr fun _ _ => step_of_expand rfl

/-- Whatever the parser comes to, it comes to at the depth that is granted. -/
def Granted (s : Store) (p : Parser) : Prop := ∀ t r, s.Runs p t r → s.run p t = some r

/-- No parser needs more whose functions leave end parts of texts. -/
theorem Granted.of_shrinking (hp : s.Everywhere Parser.Shrinking p) : s.Granted p :=
  fun _ _ h => (run_eq_some_iff hp).2 h

end Store

namespace Sequence

variable {α : Type} {s : Store} {c : Parser} {ps : List Parser} {t : Text}
  {result : Option (List (List Char) × Text)} {log : Log} {q : Sequence α}

/-- A sequence runs its parsers one after the other. -/
theorem successive_of_matchesFrom {found : Option (List (List Char))}
    (h : matchesFrom s ps t = some (found, log)) :
    ∃ result, s.Successive ps t result log ∧ found = result.map Prod.fst := by
  induction ps generalizing t found log with
  | nil =>
    cases h
    exact ⟨_, .nil t, rfl⟩
  | cons p ps ih =>
    obtain ⟨⟨o, l⟩, hp, h⟩ := Option.bind_eq_some_iff.1 h
    have hp := Store.Runs.of_step hp
    cases o with
    | failure x =>
      cases h
      exact ⟨none, .fails hp, rfl⟩
    | success m x =>
      obtain ⟨⟨others, l'⟩, hps, h⟩ := Option.bind_eq_some_iff.1 h
      cases h
      obtain ⟨result, hall, rfl⟩ := ih hps
      cases result with
      | none => exact ⟨none, .failsLate hp hall, rfl⟩
      | some found => exact ⟨_, .cons hp hall, rfl⟩

/-- A sequence comes to what its parsers come to one after the other, if that is granted. -/
theorem matchesFrom_of_successive (h : s.Successive ps t result log)
    (hps : ∀ p ∈ ps, s.Granted p) : matchesFrom s ps t = some (result.map Prod.fst, log) := by
  induction h with
  | nil => rfl
  | fails hp =>
    have hrun := hps _ List.mem_cons_self _ _ hp
    simp [matchesFrom, hrun]
  | failsLate hp _ ih | cons hp _ ih =>
    have hrun := hps _ List.mem_cons_self _ _ hp
    have hrest := ih fun p hp => hps p (List.mem_cons_of_mem _ hp)
    simp [matchesFrom, hrun, hrest]

/-- A sequence has come to a result and another parser to an outcome, and they tell the same: the value
is made of the matches of the parsers in the sequence, and the match is these matches put together; or
one of the parsers fails, and what the sequence makes of matches is not used. -/
inductive Agrees (s : Store) (q : Sequence α) (t : Text) (log : Log) :
    Except Outcome α → Outcome → Prop
  | value {ms rest} (hall : s.Successive q.parsers t (some (ms, rest)) log) :
    Agrees s q t log (.ok (q.combine ms)) (.success ms.flatten rest)
  | failure {x} (hall : s.Successive q.parsers t none log)
    (hunused : ∀ (β : Type) (other : Sequence β), other.parsers = q.parsers →
      other.run s t = some (.error (.failure t), log)) :
    Agrees s q t log (.error (.failure t)) (.failure x)

/-- A sequence agrees with whatever stands for its parsers. -/
theorem agrees_of_run (hc : s.StandsFor c q.parsers) {made : Except Outcome α}
    (h : q.run s t = some (made, log)) : ∃ o, s.Runs c t ⟨o, log⟩ ∧ q.Agrees s t log made o := by
  obtain ⟨⟨found, l⟩, hfound, hmade⟩ := Option.bind_eq_some_iff.1 h
  obtain ⟨result, hall, rfl⟩ := successive_of_matchesFrom hfound
  obtain ⟨o, hrun, ho⟩ := hc.runs t result l hall
  cases result with
  | some found =>
    cases hmade
    obtain rfl := ho
    exact ⟨_, hrun, .value hall⟩
  | none =>
    cases hmade
    cases o with
    | success => cases ho
    | failure x =>
      refine ⟨_, hrun, .failure hall fun β other hparsers => ?_⟩
      simp [Sequence.run, hparsers, hfound]

/-- What stands for its parsers does not come to an end without it, if the parsers are granted what
they need. -/
theorem run_of_agrees (hc : s.StandsFor c q.parsers) (hgranted : ∀ p ∈ q.parsers, s.Granted p)
    {o : Outcome} (h : s.Runs c t ⟨o, log⟩) :
    ∃ made, q.run s t = some (made, log) ∧ q.Agrees s t log made o := by
  obtain ⟨result, hall⟩ := hc.successive t o log h
  have hfound := matchesFrom_of_successive hall hgranted
  obtain ⟨made, hmade⟩ : ∃ made, q.run s t = some (made, log) := by
    cases result with
    | none => exact ⟨.error (.failure t), by simp [Sequence.run, hfound]⟩
    | some found => exact ⟨.ok (q.combine found.1), by simp [Sequence.run, hfound]⟩
  obtain ⟨o', hrun, hagrees⟩ := agrees_of_run hc hmade
  cases hrun.unique h
  exact ⟨made, hmade, hagrees⟩

/-- A sequence with a value comes to its end just as its parsers do when they are joined, with any
brackets, and they agree. A sequence of copies of one parser that puts all matches together has the
match of a count of it. The depth is granted to all parsers whose functions leave end parts of texts
(`Store.Granted.of_shrinking`). -/
theorem run_agrees {α : Type} (s : Store) (q : Sequence α) (t : Text) :
    (∀ c, Parser.Chain q.parsers c →
      (∀ made log, q.run s t = some (made, log) →
        ∃ o, s.Runs c t ⟨o, log⟩ ∧ q.Agrees s t log made o) ∧
      ∀ o log, s.Runs c t ⟨o, log⟩ → (∀ p ∈ q.parsers, s.Granted p) →
        ∃ made, q.run s t = some (made, log) ∧ q.Agrees s t log made o) ∧
    ∀ n p (copies : Sequence (List Char)), copies.parsers = List.replicate n p →
      copies.combine = List.flatten →
      (∀ made log, copies.run s t = some (made, log) → ∃ o, s.Runs (.exactly n p) t ⟨o, log⟩ ∧
        made = if o.ok then .ok o.matched else .error (.failure t)) ∧
      ∀ o log, s.Runs (.exactly n p) t ⟨o, log⟩ → s.Granted p →
        copies.run s t = some (if o.ok then .ok o.matched else .error (.failure t), log) := by
  refine ⟨fun c hc => ⟨fun made log h => ?_, fun o log h hgranted => ?_⟩,
    fun n p copies hparsers hcombine => ?_⟩
  · exact agrees_of_run (.of_chain s hc) h
  · exact run_of_agrees (.of_chain s hc) hgranted h
  · have hcount : s.StandsFor (.exactly n p) copies.parsers := hparsers ▸ .exactly s n p
    have hmade {made o log} (h : copies.Agrees s t log made o) :
        made = if o.ok then .ok o.matched else .error (.failure t) := by
      cases h with
      | value => simp [hcombine, Outcome.ok, Outcome.matched]
      | failure => simp [Outcome.ok]
    refine ⟨fun made log h => ?_, fun o log h hp => ?_⟩
    · obtain ⟨o, hrun, hagrees⟩ := agrees_of_run hcount h
      exact ⟨o, hrun, hmade hagrees⟩
    · have hgranted : ∀ q ∈ copies.parsers, s.Granted q := by
        intro q hq
        rw [hparsers] at hq
        exact List.eq_of_mem_replicate hq ▸ hp
      obtain ⟨made, hrun, hagrees⟩ := run_of_agrees hcount hgranted h
      rw [hrun, hmade hagrees]

/-- A name, a sign and a digit, and two letters, are read as a value and as joined parsers. -/
theorem run_agrees_assignment :
    let t : Text := .ofList ['a', '=', '1']
    let q : Sequence Value := ⟨[.anyLetter, .one '=', .anyNumber], Combine.assign.value, by simp⟩
    let c : Parser := .anyLetter >>> (.one '=' >>> .anyNumber)
    let copies : Sequence (List Char) := ⟨List.replicate 2 .anyLetter, List.flatten, by simp⟩
    Parser.Chain q.parsers c ∧ (∀ p ∈ q.parsers, Store.empty.Granted p) ∧
      q.run .empty t = some (.ok (.assigned ['a'] 1), []) ∧
      q.Agrees .empty t [] (.ok (.assigned ['a'] 1)) (.success ['a', '=', '1'] (.ofList [])) ∧
      copies.run .empty t = some (.error (.failure t), []) := by
  intro t q c copies
  have hgranted {p : Parser} (hself : p.Shrinking) (hchildren : p.children = [])
      (htarget : p.target? = none) : Store.empty.Granted p :=
    .of_shrinking (.intro hself (by simp [hchildren]) (by simp [htarget]))
  have hall : ∀ p ∈ q.parsers, Store.empty.Granted p := by
    simp only [q, List.forall_mem_cons]
    exact ⟨hgranted trivial rfl rfl, hgranted trivial rfl rfl, hgranted trivial rfl rfl, by simp⟩
  have hc : Parser.Chain q.parsers c := .andThen (.one _) (.andThen (.one _) (.one _))
  have hrun : Store.empty.Runs c t ⟨.success ['a', '=', '1'] (.ofList []), []⟩ :=
    .of_step (show Store.empty.step 0 c t = _ from rfl)
  have hcopies : Store.empty.Runs (.exactly 2 .anyLetter) t ⟨.failure t, []⟩ :=
    .of_step (show Store.empty.step 0 _ t = _ from rfl)
  obtain ⟨hchain, hcount⟩ := run_agrees .empty q t
  obtain ⟨made, hmade, hagrees⟩ := (hchain c hc).2 _ _ hrun hall
  have hq : q.run .empty t = some (.ok (.assigned ['a'] 1), []) := by
    have hname : Store.empty.run .anyLetter t = some ⟨.success ['a'] (t.drop 1), []⟩ :=
      Store.step_mono (Nat.zero_le _) rfl
    have hsign : Store.empty.run (.one '=') (t.drop 1) = some ⟨.success ['='] (t.drop 2), []⟩ :=
      Store.step_mono (Nat.zero_le _) rfl
    have hdigit : Store.empty.run .anyNumber (t.drop 2) = some ⟨.success ['1'] (t.drop 3), []⟩ :=
      Store.step_mono (Nat.zero_le _) rfl
    have hvalue : Combine.assign.value [['a'], ['='], ['1']] = .assigned ['a'] 1 := by decide
    simp [Sequence.run, matchesFrom, q, hname, hsign, hdigit, hvalue]
  cases hq.symm.trans hmade
  exact ⟨hc, hall, hq, hagrees, (hcount 2 _ copies rfl rfl).2 _ _ hcopies (hgranted trivial rfl rfl)⟩

end Sequence

end Descent
