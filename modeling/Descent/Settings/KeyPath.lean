/-!
# Key paths

A key path names a place among settings: a word, then words after points and positions in brackets, as
in `logging.level` or `list[2].name`.
-/

namespace Descent

/-- One step to a place. -/
inductive KeyStep
  /-- To the entry of a table. -/
  | entry (name : String)
  /-- To the element of a list; a negative position counts from the end. -/
  | element (position : Int)
  deriving DecidableEq, Inhabited, Repr

/-- The steps to a place: one to an entry of the outermost table, and more. -/
structure KeyPath where
  first : String
  rest : List KeyStep
  deriving DecidableEq, Inhabited, Repr

namespace KeyPath

/-- Whether a character can stand in a word of a path. -/
def isWordChar (c : Char) : Bool := c.isAlphanum || c == ' ' || c == '_' || c == '-'

/-- A word, and what follows. -/
def word? (chars : List Char) : Option (String × List Char) :=
  let word := chars.takeWhile isWordChar
  if word.isEmpty then none else some (String.ofList word, chars.dropWhile isWordChar)

/-- What follows the blanks. -/
def afterBlanks (chars : List Char) : List Char := chars.dropWhile fun c => c == ' ' || c == '\t'

/-- A position and the bracket after it, and what follows. Positions have 64 bits. -/
def position? (chars : List Char) : Option (Int × List Char) :=
  let chars := afterBlanks chars
  let (negative, chars) :=
    match chars with
    | '-' :: rest => (true, rest)
    | rest => (false, rest)
  let digits := chars.takeWhile Char.isDigit
  if digits.isEmpty then none
  else
    let size := digits.foldl (fun n d => n * 10 + (d.toNat - '0'.toNat)) 0
    let position : Int := if negative then -size else size
    match afterBlanks (chars.dropWhile Char.isDigit) with
    | ']' :: rest =>
      if -0x8000000000000000 ≤ position ∧ position < 0x8000000000000000 then
        some (position, rest)
      else none
    | _ => none

/-- The steps that a text writes. Every step takes at least one character. -/
def steps? : Nat → List Char → Option (List KeyStep)
  | _, [] => some []
  | 0, _ => none
  | fuel + 1, '.' :: rest => do
    let (name, rest) ← word? rest
    return .entry name :: (← steps? fuel rest)
  | fuel + 1, '[' :: rest => do
    let (position, rest) ← position? rest
    return .element position :: (← steps? fuel rest)
  | _, _ => none

/-- The path that a text writes. -/
def ofText? (text : List Char) : Option KeyPath := do
  let (first, rest) ← word? text
  return ⟨first, ← steps? rest.length rest⟩

/-- One step as text. -/
def stepText : KeyStep → String
  | .entry name => "." ++ name
  | .element position => "[" ++ toString position ++ "]"

/-- The path as text. -/
def toText (p : KeyPath) : String := p.rest.foldl (fun s step => s ++ stepText step) p.first

end KeyPath

end Descent
