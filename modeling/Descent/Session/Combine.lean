/-!
# Values of sequences

The values that a session makes of the texts matched by a sequence.
-/

namespace Descent

/-- What to make of the texts that a sequence matches. -/
inductive Combine
  /-- The texts themselves. -/
  | list
  /-- The texts put together. -/
  | join
  /-- How many there are. -/
  | count
  /-- The first text, as a name, and the number that the third one writes. -/
  | assign
  deriving DecidableEq, Repr

/-- The value of a sequence. -/
inductive Value
  | texts (texts : List (List Char))
  | text (text : List Char)
  | count (n : Nat)
  | assigned (name : List Char) (n : Nat)
  deriving DecidableEq, Repr

/-- The number up to 255 that a text writes: digits, with a plus sign in front at will. -/
def byteValue? (text : List Char) : Option Nat :=
  let digits := if text.head? = some '+' then text.tail else text
  if digits.isEmpty ∨ !digits.all Char.isDigit then none
  else
    let n := digits.foldl (fun n d => n * 10 + (d.toNat - '0'.toNat)) 0
    if n ≤ 255 then some n else none

/-- The value of the texts. A text that writes no number counts as zero. -/
def Combine.value (c : Combine) (texts : List (List Char)) : Value :=
  match c with
  | list => .texts texts
  | join => .text texts.flatten
  | count => .count texts.length
  | assign => .assigned (texts.getD 0 []) ((byteValue? (texts.getD 2 [])).getD 0)

end Descent
