import Descent.Proofs.Part
import Descent.Sequence
import Descent.Session.Callback

/-!
# Failures take nothing

The rules of the game are that a failure hands back its whole input and a success leaves a suffix of
it. Whatever is put together from functions that keep them keeps them too, through loops, choices
and rules that call each other (`run_backtracks`). Most combinations hand back their input even if
the functions below them do not, and so do sequences with a value.
-/

namespace Descent

namespace Outcome

/-- The outcome keeps the rules of the game on a text. -/
def Fair (t : Text) : Outcome → Prop
  | success _ rest => rest.chars <:+ t.chars
  | failure rest => rest = t

/-- The outcome keeps the rules, and what it matches is exactly what it takes. -/
def Exact (t : Text) : Outcome → Prop
  | success matched rest => matched ++ rest.chars = t.chars
  | failure rest => rest = t

/-- What takes exactly what it matches leaves a suffix. -/
theorem Exact.fair {t : Text} {o : Outcome} (h : o.Exact t) : o.Fair t := by
  cases o with
  | success matched rest => exact ⟨matched, h⟩
  | failure rest => exact h

end Outcome

/-! ## Parsers without parts -/

namespace Step

/-- The end of the text is matched by nothing. -/
theorem eof_exact (t : Text) : (eof t).Exact t := by
  unfold eof
  split
  · rfl
  · rfl

/-- What a span takes is what it matches. -/
theorem span_exact (accept : Char → Bool) (t : Text) : (span accept t).Exact t := by
  simp only [span]
  split
  · rfl
  · have hdrop : t.chars.drop (t.chars.takeWhile accept).length = t.chars.dropWhile accept := by
      calc t.chars.drop (t.chars.takeWhile accept).length
          = (t.chars.takeWhile accept ++ t.chars.dropWhile accept).drop
              (t.chars.takeWhile accept).length := by rw [List.takeWhile_append_dropWhile]
        _ = t.chars.dropWhile accept := List.drop_left
    simp only [Outcome.Exact, Text.chars_drop, hdrop, List.takeWhile_append_dropWhile]

/-- What a character takes is what it matches. -/
theorem char_exact (accept : Char → Bool) (t : Text) : (char accept t).Exact t := by
  unfold char
  cases h : t.uncons? with
  | none => rfl
  | some pair =>
    obtain ⟨c, rest⟩ := pair
    by_cases hc : accept c = true
    · simp [hc, Outcome.Exact, Text.uncons?_eq_some_iff.1 h]
    · simp [hc, Outcome.Exact]

/-- What a given text takes is what it matches. -/
theorem literal_exact (text : List Char) (t : Text) : (literal text t).Exact t := by
  unfold literal
  cases h : t.after? text with
  | none => rfl
  | some rest => exact (Text.after?_eq_some_iff.1 h).symm

/-- A search may begin its match anywhere, but what it leaves is a suffix. -/
theorem found_fair (search : List Char → Option (Nat × Nat)) (t : Text) :
    (found search t).Fair t := by
  unfold found
  cases h : search t.chars with
  | none => rfl
  | some place => simp [Outcome.Fair, List.drop_suffix]

end Step

namespace Parser

/-- A function written by hand keeps the rules of the game. -/
def Honest : Parser → Prop
  | handmade _ run => ∀ t, (run t).Fair t
  | _ => True

/-- A function written by hand leaves a suffix whenever it succeeds. -/
def Shrinking : Parser → Prop
  | handmade _ run => ∀ t m x, run t = .success m x → x.chars <:+ t.chars
  | _ => True

/-- Honesty is only asked of functions written by hand. -/
theorem honest_neutral : Neutral Honest :=
  ⟨fun _ _ => trivial, fun _ _ => trivial, fun _ _ => trivial, trivial⟩

/-- That a suffix is left is only asked of functions written by hand. -/
theorem shrinking_neutral : Neutral Shrinking :=
  ⟨fun _ _ => trivial, fun _ _ => trivial, fun _ _ => trivial, trivial⟩

/-- What keeps the rules of the game leaves a suffix. -/
theorem Honest.shrinking {p : Parser} (hp : p.Honest) : p.Shrinking := by
  cases p with
  | handmade name run =>
    intro t m x hrun
    have hfair := hp t
    rwa [hrun] at hfair
  | _ => trivial

/-- The parsers that hand back their input by themselves when they fail. -/
def HandsBack : Parser → Prop
  | many1 _ => True
  | exactly .. => True
  | between .. => True
  | andThen .. => True
  | thenOptional .. => True
  | optionalThen .. => True
  | thenIgnore .. => True
  | ignoreThen .. => True
  | _ => False

/-- Searches and functions written by hand apart, a parser without parts takes exactly what it
matches. -/
theorem direct_exact {p : Parser} {f : Text → Outcome} (t : Text) (hp : p.direct? = some f) :
    (f t).Exact t ∨ (∃ q, p = pattern q ∧ f = Step.found q.find) ∨ ∃ name, p = handmade name f := by
  cases p with
  | eof =>
    cases Option.some.inj hp
    exact .inl (Step.eof_exact t)
  | empty =>
    cases Option.some.inj hp
    exact .inl rfl
  | whitespace =>
    cases Option.some.inj hp
    exact .inl (Step.span_exact _ t)
  | literal text =>
    cases Option.some.inj hp
    exact .inl (Step.literal_exact text t)
  | pattern q =>
    cases Option.some.inj hp
    exact .inr (.inl ⟨q, rfl, rfl⟩)
  | handmade name run =>
    cases Option.some.inj hp
    exact .inr (.inr ⟨name, rfl⟩)
  | unresolved name =>
    cases Option.some.inj hp
    exact .inl rfl
  | anyLetter | anyNumber | one c | anyChar chars | anyCharBut chars =>
    cases Option.some.inj hp
    exact .inl (Step.char_exact _ t)
  | _ => cases hp

/-- A parser without parts leaves a suffix. -/
theorem direct_shrinks {p : Parser} {f : Text → Outcome} {t x : Text} {m : List Char}
    (hp : p.direct? = some f) (hgood : p.Shrinking) (hf : f t = .success m x) :
    x.chars <:+ t.chars := by
  rcases direct_exact t hp with hexact | ⟨q, rfl, rfl⟩ | ⟨name, rfl⟩
  · rw [hf] at hexact
    exact ⟨m, hexact⟩
  · have hfair := Step.found_fair q.find t
    rwa [hf] at hfair
  · exact hgood t m x hf

/-- A parser without parts keeps the rules of the game if it is honest. -/
theorem direct_fair {p : Parser} {f : Text → Outcome} (t : Text) (hp : p.direct? = some f)
    (hgood : p.Honest) : (f t).Fair t := by
  rcases direct_exact t hp with hexact | ⟨q, rfl, rfl⟩ | ⟨name, rfl⟩
  · exact hexact.fair
  · exact Step.found_fair q.find t
  · exact hgood t

end Parser

/-! ## All parsers -/

namespace Store

variable {s : Store} {p : Parser} {t : Text} {r : Run}

/-- A success leaves a suffix. The induction is on the run: what a part leaves is where the next
part starts. -/
theorem Runs.suffix (h : s.Runs p t r) (hp : s.Everywhere Parser.Shrinking p) :
    ∀ {m x}, r.outcome = .success m x → x.chars <:+ t.chars := by
  induction h with
  | direct t hdirect => exact fun hx => Parser.direct_shrinks hdirect hp.self hx
  | expand hexpand _ ih => exact ih (hp.expand Parser.shrinking_neutral hexpand)
  | first b _ ih => exact ih (hp.child (by simp [Parser.children]))
  | second _ _ _ ih => exact ih (hp.child (by simp [Parser.children]))
  | joins hjoins _ _ iha ihb =>
    intro m x hx
    cases hx
    exact (ihb (hp.joins hjoins).2 rfl).trans (iha (hp.joins hjoins).1 rfl)
  | stop =>
    intro m x hx
    cases hx
    exact List.suffix_refl _
  | last _ _ ih => exact ih (hp.child (by simp [Parser.children]))
  | more _ _ _ ihb ihrest =>
    intro m x hx
    cases hx
    exact (ihrest hp rfl).trans (ihb (hp.child (by simp [Parser.children])) rfl)
  | once _ _ _ ih => exact ih (.intro trivial (fun c hc => hp.child hc) (by simp [Parser.target?]))
  | admitted _ _ ih => exact ih (hp.child (by simp [Parser.children]))
  | rule htarget hrule _ ih => exact ih (hp.called htarget hrule)
  | breaks | breaksLate | never | objected | dead | missing =>
    intro m x hx
    cases hx

/-- A success leaves no more than it was given. -/
theorem Runs.size_le {m : List Char} {x : Text} {l : Log} (h : s.Runs p t ⟨.success m x, l⟩)
    (hp : s.Everywhere Parser.Shrinking p) : x.size ≤ t.size :=
  Text.size_le_of_suffix (h.suffix hp rfl)

/-- A failure of an honest parser hands back the input. A failure of a part is passed on only where
the part was given the whole input. -/
theorem Runs.failure_eq (h : s.Runs p t r) (hp : s.Everywhere Parser.Honest p) :
    ∀ {x}, r.outcome = .failure x → x = t := by
  induction h with
  | @direct p f t hdirect =>
    intro x hx
    have hfail : f t = .failure x := hx
    have hfair := Parser.direct_fair t hdirect hp.self
    rwa [hfail] at hfair
  | expand hexpand _ ih => exact ih (hp.expand Parser.honest_neutral hexpand)
  | second _ _ _ ih => exact ih (hp.child (by simp [Parser.children]))
  | once _ _ _ ih => exact ih (.intro trivial (fun c hc => hp.child hc) (by simp [Parser.target?]))
  | admitted _ _ ih => exact ih (hp.child (by simp [Parser.children]))
  | rule htarget hrule _ ih => exact ih (hp.called htarget hrule)
  | breaks | breaksLate | never | objected | dead | missing =>
    intro x hx
    cases hx
    rfl
  | first | joins | stop | last | more =>
    intro x hx
    cases hx

/-- An honest parser keeps the rules of the game. -/
theorem Runs.fair (h : s.Runs p t r) (hp : s.Everywhere Parser.Honest p) : r.outcome.Fair t := by
  cases ho : r.outcome with
  | success m x => exact h.suffix (fun q hq => (hp q hq).shrinking) ho
  | failure x => exact h.failure_eq hp ho

/-- A sequence that fails hands back its input, whatever its parts do. -/
theorem Runs.failure_of_joins {a b : Parser} {keep : List Char → List Char → List Char}
    (h : s.Runs p t r) (hp : Parser.Joins keep a b p) (hr : r.outcome.ok = false) :
    r.outcome = .failure t := by
  rcases h.joins_cases hp with ⟨x, l, _, rfl⟩ | ⟨m, x, l, y, l', _, _, rfl⟩ |
    ⟨m, x, l, n, y, l', _, _, rfl⟩
  · rfl
  · rfl
  · cases hr

/-- A loop never fails. -/
theorem Runs.ok_of_many0 {body : Parser} (h : s.Runs (.many0 body) t r) : r.outcome.ok = true := by
  cases h with
  | stop | last | more => rfl
  | _ => contradiction

/-- The parsers that hand back their input by themselves do so with any functions below them. -/
theorem Runs.failure_of_handsBack (h : s.Runs p t r) (hp : p.HandsBack)
    (hr : r.outcome.ok = false) : r.outcome = .failure t := by
  cases p with
  | andThen a b => exact h.failure_of_joins (.andThen a b) hr
  | thenIgnore a b => exact h.failure_of_joins (.thenIgnore a b) hr
  | ignoreThen a b => exact h.failure_of_joins (.ignoreThen a b) hr
  | thenOptional a b => exact (h.simpler rfl).failure_of_joins (.andThen ..) hr
  | optionalThen a b => exact (h.simpler rfl).failure_of_joins (.andThen ..) hr
  | between inner opening closing => exact (h.simpler rfl).failure_of_joins (.andThen ..) hr
  | exactly count body =>
    cases count with
    | zero =>
      have hempty := (h.simpler rfl).unique (.direct t rfl)
      rw [hempty] at hr
      cases hr
    | succ count => exact (h.simpler rfl).failure_of_joins (.andThen ..) hr
  | many1 body =>
    cases h with
    | never => rfl
    | once _ hloop =>
      rw [hloop.ok_of_many0] at hr
      cases hr
    | _ => contradiction
  | _ => exact absurd hp id

end Store

/-- A sequence with a value hands back its input by itself when one of its parsers fails. -/
theorem Sequence.failure_of_run {α : Type} {q : Sequence α} {s : Store} {t : Text} {o : Outcome}
    {log : Log} (h : q.run s t = some (.error o, log)) : o = .failure t := by
  obtain ⟨⟨found, log'⟩, _, hfound⟩ := Option.bind_eq_some_iff.1 h
  cases found with
  | some texts => cases hfound
  | none =>
    cases Option.some.inj hfound
    rfl

/-- Backtracking: whatever has run to its end, at any depth, has either taken a front part of its
input or handed the input back as it was. The first part is about honest parsers, in which every
function written by hand keeps the rules; the other two need no honesty, because the combinations
they speak of restore the input themselves. -/
theorem run_backtracks {α : Type} (s : Store) (t : Text) :
    (∀ p depth r, s.Everywhere Parser.Honest p → s.step depth p t = some r → r.outcome.Fair t) ∧
    (∀ p depth r, p.HandsBack → s.step depth p t = some r → r.outcome.ok = false →
      r.outcome = .failure t) ∧
    (∀ (q : Sequence α) o log, q.run s t = some (.error o, log) → o = .failure t) := by
  refine ⟨?_, ?_, ?_⟩
  · intro p depth r hp h
    exact (Store.Runs.of_step h).fair hp
  · intro p depth r hp h hr
    exact (Store.Runs.of_step h).failure_of_handsBack hp hr
  · intro q o log h
    exact Sequence.failure_of_run h

/-- A text that opens two brackets and closes one is handed back whole by the grammar of brackets,
by a sequence whose second part hands back something else, and by such a sequence with a value. -/
theorem run_backtracks_unclosed :
    let t : Text := .ofList ['⟨', '⟨', '⟩']
    let broken : Parser := .andThen (.one '⟨') (.satisfy Callback.failTail)
    (Store.angles.Everywhere Parser.Honest Store.anglesEntry ∧
      ∃ r, Store.angles.step 4 Store.anglesEntry t = some r ∧ r.outcome = .failure t ∧
        r.outcome.Fair t) ∧
    (broken.HandsBack ∧ ∃ r, Store.angles.step 0 broken t = some r ∧ r.outcome.ok = false ∧
      r.outcome = .failure t) ∧
    (∃ (q : Sequence Nat) (o : Outcome) (log : Log),
      q.parsers = [.one '⟨', .satisfy Callback.failTail] ∧
      q.run Store.angles t = some (.error o, log) ∧ o = .failure t) := by
  intro t broken
  have hall := @run_backtracks Nat Store.angles t
  have hhonest : Store.angles.Everywhere Parser.Honest Store.anglesEntry :=
    Store.everywhere_anglesEntry (fun _ _ => trivial) (fun _ _ => trivial) (fun _ => trivial)
      (fun _ _ _ => trivial) (fun _ => trivial)
  have hbroken : broken.HandsBack := trivial
  let q : Sequence Nat := ⟨[.one '⟨', .satisfy Callback.failTail], List.length, by simp⟩
  have hq : q.run Store.angles t = some (.error (.failure t), []) := by
    have hone : Store.angles.run (.one '⟨') t = some ⟨.success ['⟨'] (t.drop 1), []⟩ :=
      Store.step_mono (Nat.zero_le _) rfl
    have htail : Store.angles.run (.satisfy Callback.failTail) (t.drop 1) =
        some ⟨.failure (t.drop 2), []⟩ := Store.step_mono (Nat.zero_le _) rfl
    simp [Sequence.run, Sequence.matchesFrom, q, hone, htail]
  refine ⟨⟨hhonest, _, rfl, rfl, ?_⟩, ⟨hbroken, _, rfl, rfl, ?_⟩, q, _, _, rfl, hq, ?_⟩
  · exact hall.1 _ 4 _ hhonest rfl
  · exact hall.2.1 broken 0 _ hbroken rfl rfl
  · exact hall.2.2 q _ _ hq

end Descent
