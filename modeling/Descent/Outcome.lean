import Descent.Text.Basic

/-!
# Outcomes

What one run of a parser reports: on success the matched text and what is left to read, on failure
only what is left to read. A parser that keeps the rules of the game leaves a suffix of its input on
success and its whole input on failure; an outcome by itself can say anything, because a parser can
be written by hand.
-/

namespace Descent

/-- The result of running a parser once. -/
inductive Outcome
  /-- The parser matched `matched` and left `rest`. -/
  | success (matched : List Char) (rest : Text)
  /-- The parser did not match, and hands back `rest`. -/
  | failure (rest : Text)
  deriving DecidableEq, Inhabited

namespace Outcome

/-- Whether the run succeeded. -/
def ok : Outcome → Bool
  | success .. => true
  | failure _ => false

/-- The matched text, which is empty after a failure. -/
def matched : Outcome → List Char
  | success matched _ => matched
  | failure _ => []

/-- What is left to read. -/
def remaining : Outcome → Text
  | success _ rest => rest
  | failure rest => rest

/-- How many bytes of `input` the run took: never below zero, even if the rest is longer. -/
def consumed (o : Outcome) (input : Text) : Nat := input.size - o.remaining.size

/-- The outcome with the given verdict, match and rest; the match of a failure is dropped. -/
def ofParts (ok : Bool) (matched : List Char) (rest : Text) : Outcome :=
  if ok then success matched rest else failure rest

end Outcome

end Descent
