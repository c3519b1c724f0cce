import Descent.Grammar.Build
import Descent.Parser.Run

/-!
# Sequences

A sequence runs one parser after the other and makes a value of the texts they match. It is how a
caller gets something else than text out of parsers.
-/

namespace Descent

/-- At least one parser, and what to make of their matches. -/
structure Sequence (α : Type) where
  parsers : List Parser
  combine : List (List Char) → α
  nonempty : parsers ≠ []

namespace Sequence

/-- The sequence of the given parsers. -/
def ofList (parsers : List Parser) (combine : List (List Char) → α) :
    Except GrammarError (Sequence α) :=
  if h : parsers = [] then .error .emptySequence else .ok ⟨parsers, combine, h⟩

/-- Runs the parsers in order. The result is the list of matches, or nothing if one of them fails, and
the log of those that ran. -/
def matchesFrom (store : Store) : List Parser → Text → Option (Option (List (List Char)) × Log)
  | [], _ => some (some [], [])
  | p :: ps, t => do
    let first ← store.run p t
    match first.outcome with
    | .failure _ => return (none, first.log)
    | .success matched rest =>
      let (others, log) ← matchesFrom store ps rest
      return (others.map (matched :: ·), first.log ++ log)

/-- Runs the sequence: the value, or the failure on the whole text. -/
def run (store : Store) (s : Sequence α) (t : Text) : Option (Except Outcome α × Log) := do
  let (found, log) ← matchesFrom store s.parsers t
  match found with
  | some texts => return (.ok (s.combine texts), log)
  | none => return (.error (.failure t), log)

/-- The sequence as it is shown to people. -/
def describe (s : Sequence α) : String :=
  "Seq \x7b parsers: [" ++ ", ".intercalate (s.parsers.map Parser.describe) ++ "], .. \x7d"

end Sequence

end Descent
