import Descent.Text.CharSet

/-!
# Tables of stretches

A property of characters is written as the lengths of the stretches into which it cuts the code
space. For a property that holds or does not hold the stretches alternate, the first one outside; for
a property with several values each length follows the name of its value. `n*k` stands for `k`
stretches of length `n`, and `a+b*k` for `k` times the two stretches `a`, `b`.
-/

namespace Descent.Unicode

/-- The words of a table, which is given line by line. -/
def words (table : List String) : List (List Char) := table.flatMap (·.toList.splitOn ' ')

/-- The number that decimal digits write. -/
def number (digits : List Char) : Nat := Nat.ofDigitChars 10 digits 0

/-- A word and how often it is repeated: `n*k`, or `n` alone for once. -/
def repeated (word : List Char) : List Char × Nat :=
  match word.splitOn '*' with
  | [once, times] => (once, number times)
  | _ => (word, 1)

/-- The lengths in a table of alternating stretches. -/
def lengths (table : List String) : List Nat :=
  (words table).flatMap fun word =>
    let (length, times) := repeated word
    List.replicate times (number length)

/-- The ranges inside, for stretches from `start` on of which the first lies outside. -/
def insideFrom (start : Nat) : List Nat → List CodeRange
  | outside :: inside :: rest =>
    ⟨start + outside, start + outside + inside - 1⟩ :: insideFrom (start + outside + inside) rest
  | _ => []

/-- The set that a table of alternating stretches describes. -/
def setOfStretches (table : List String) : CharSet := ⟨insideFrom 0 (lengths table)⟩

/-- A stretch of code points that share one value of a property. -/
structure Stretch where
  value : String
  range : CodeRange
  deriving Inhabited, Repr

/-- One named stretch: a name of `width` letters, then the length. -/
def namedLength (width : Nat) (word : List Char) : String × Nat :=
  (String.ofList (word.take width), number (word.drop width))

/-- The named lengths in a table whose names have `width` letters. -/
def namedLengths (width : Nat) (table : List String) : List (String × Nat) :=
  (words table).flatMap fun word =>
    let (once, times) := repeated word
    (List.replicate times ((once.splitOn '+').map (namedLength width))).flatten

/-- The stretches that follow each other from `start` on. -/
def stretchesFrom (start : Nat) : List (String × Nat) → List Stretch
  | [] => []
  | (value, length) :: rest =>
    ⟨value, ⟨start, start + length - 1⟩⟩ :: stretchesFrom (start + length) rest

/-- The set of the stretches whose value is accepted. -/
def setWhere (accept : String → Bool) (stretches : List Stretch) : CharSet :=
  CharSet.ofRanges ((stretches.filter fun s => accept s.value).map (·.range))

end Descent.Unicode
