import Descent.Event
import Descent.Outcome

/-!
# Steps

What a parser means is a step: given the text that is left, it reports an outcome and a log, or, if it
would go on for longer than it is allowed to, nothing at all. Here are the steps that the primitives
and combinators of parsers stand for. A combination that fails hands back the text it was given, even
if its first part had taken some of it.
-/

namespace Descent

/-- One finished run. -/
structure Run where
  outcome : Outcome
  /-- What happened on the way. -/
  log : Log
  deriving DecidableEq

/-- What a parser does with a text. -/
abbrev Step := Text → Option Run

namespace Step

/-- The step that reports the outcome of a function and nothing else. -/
def quiet (f : Text → Outcome) : Step := fun t => some ⟨f t, []⟩

/-- Nothing, where nothing is left. -/
def eof (t : Text) : Outcome := if t.isEmpty then .success [] t else .failure t

/-- The characters from the start on that are accepted, if there are any. -/
def span (accept : Char → Bool) (t : Text) : Outcome :=
  let matched := t.chars.takeWhile accept
  if matched.isEmpty then .failure t else .success matched (t.drop matched.length)

/-- One character that is accepted. -/
def char (accept : Char → Bool) (t : Text) : Outcome :=
  match t.uncons? with
  | some (c, rest) => if accept c then .success [c] rest else .failure t
  | none => .failure t

/-- A given text. -/
def literal (text : List Char) (t : Text) : Outcome :=
  match t.after? text with
  | some rest => .success text rest
  | none => .failure t

/-- What a search finds, which tells how many characters stand before the match and before its end.
Everything up to the end is taken. -/
def found (search : List Char → Option (Nat × Nat)) (t : Text) : Outcome :=
  match search t.chars with
  | some (first, last) => .success ((t.chars.drop first).take (last - first)) (t.drop last)
  | none => .failure t

/-- The first step, or else the second on the same text. -/
def orElse (a b : Step) : Step := fun t => do
  let first ← a t
  if first.outcome.ok then return first
  let second ← b t
  return { second with log := first.log ++ second.log }

/-- One step after the other; `keep` says what becomes of the two matches. -/
def sequence (keep : List Char → List Char → List Char) (a b : Step) : Step := fun t => do
  let first ← a t
  match first.outcome with
  | .failure _ => return ⟨.failure t, first.log⟩
  | .success matched rest =>
    let second ← b rest
    let log := first.log ++ second.log
    match second.outcome with
    | .failure _ => return ⟨.failure t, log⟩
    | .success more rest => return ⟨.success (keep matched more) rest, log⟩

/-- One step, and the other if it succeeds on what is left. -/
def thenOptional (a b : Step) : Step := fun t => do
  let first ← a t
  match first.outcome with
  | .failure _ => return ⟨.failure t, first.log⟩
  | .success matched rest =>
    let second ← b rest
    let log := first.log ++ second.log
    match second.outcome with
    | .failure _ => return ⟨.success matched rest, log⟩
    | .success more rest => return ⟨.success (matched ++ more) rest, log⟩

/-- The first step if it succeeds, and then the second. -/
def optionalThen (a b : Step) : Step := fun t => do
  let first ← a t
  let (lead, rest) :=
    match first.outcome with
    | .success matched rest => (matched, rest)
    | .failure _ => ([], t)
  let second ← b rest
  let log := first.log ++ second.log
  match second.outcome with
  | .failure _ => return ⟨.failure t, log⟩
  | .success more rest => return ⟨.success (lead ++ more) rest, log⟩

/-- An opening step, an inner step and a closing step; the match spans all three. -/
def between (inner opening closing : Step) : Step := fun t => do
  let left ← opening t
  match left.outcome with
  | .failure _ => return ⟨.failure t, left.log⟩
  | .success matched rest =>
    let middle ← inner rest
    let log := left.log ++ middle.log
    match middle.outcome with
    | .failure _ => return ⟨.failure t, log⟩
    | .success more rest =>
      let right ← closing rest
      let log := log ++ right.log
      match right.outcome with
      | .failure _ => return ⟨.failure t, log⟩
      | .success last rest => return ⟨.success (matched ++ more ++ last) rest, log⟩

/-- What some repetitions in a row have brought. -/
structure Repetition where
  /-- How many succeeded. -/
  count : Nat
  /-- The matches together, last character first. -/
  matched : List Char
  /-- What is left to read. -/
  rest : Text
  /-- The events, last one first. -/
  log : Log

namespace Repetition

/-- Before the first repetition. -/
def start (t : Text) : Repetition := ⟨0, [], t, []⟩

/-- One more repetition has succeeded. -/
def add (r : Repetition) (matched : List Char) (rest : Text) (log : Log) : Repetition :=
  ⟨r.count + 1, matched.reverse ++ r.matched, rest, log.reverse ++ r.log⟩

/-- The run that ends with success after these repetitions. -/
def succeed (r : Repetition) : Run := ⟨.success r.matched.reverse r.rest, r.log.reverse⟩

/-- The run that ends with failure on `t` after these repetitions and the events of another one. -/
def fail (r : Repetition) (t : Text) (log : Log) : Run := ⟨.failure t, r.log.reverse ++ log⟩

end Repetition

/-- Repeats a step until it fails, takes no bytes, or leaves nothing. The limit counts the repetitions
that are allowed. -/
def repeatFrom (body : Step) : Nat → Repetition → Option Repetition
  | 0, _ => none
  | limit + 1, r =>
    match body r.rest with
    | none => none
    | some ⟨.failure _, log⟩ => some { r with log := log.reverse ++ r.log }
    | some ⟨.success matched rest, log⟩ =>
      let next := r.add matched rest log
      if rest.size = 0 ∨ rest.size = r.rest.size then some next else repeatFrom body limit next

/-- A step any number of times in a row. -/
def many0 (limit : Nat) (body : Step) : Step := fun t => do
  let r ← repeatFrom body limit (.start t)
  return r.succeed

/-- A step any number of times in a row, but at least once. -/
def many1 (limit : Nat) (body : Step) : Step := fun t => do
  let r ← repeatFrom body limit (.start t)
  if r.count = 0 then return r.fail t [] else return r.succeed

/-- Repeats a step `count` more times; `t` is the text before the first time. -/
def exactlyFrom (body : Step) (t : Text) : Nat → Repetition → Option Run
  | 0, r => some r.succeed
  | count + 1, r =>
    match body r.rest with
    | none => none
    | some ⟨.failure _, log⟩ => some (r.fail t log)
    | some ⟨.success matched rest, log⟩ => exactlyFrom body t count (r.add matched rest log)

/-- A step a fixed number of times in a row. -/
def exactly (count : Nat) (body : Step) : Step := fun t => exactlyFrom body t count (.start t)

/-- A step that is not taken where the text raises an objection. -/
def guarded (objection : Text → Option Event) (body : Step) : Step := fun t =>
  match objection t with
  | some event => some ⟨.failure t, [event]⟩
  | none => body t

/-- A step as the run of a rule, with the events around it. -/
def rule (name : String) (body : Step) : Step := fun t => do
  let r ← body t
  return ⟨r.outcome,
    .enterRule name t.size :: r.log ++ [.exitRule name r.outcome.ok (r.outcome.consumed t)]⟩

end Step

end Descent
