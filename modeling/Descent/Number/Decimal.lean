/-!
# Decimal numbers

A decimal number is a whole number of units of some power of ten. Here it is read from text, and
written without an exponent.
-/

namespace Descent

/-- The number `digits * 10 ^ exponent`, or its opposite. -/
structure Decimal where
  negative : Bool
  digits : Nat
  exponent : Int
  deriving DecidableEq, Inhabited, Repr

/-- The number that decimal digits write, starting from `n`. -/
def digitsValue (n : Nat) (digits : List Char) : Nat :=
  digits.foldl (fun n d => n * 10 + (d.toNat - '0'.toNat)) n

/-- A sign, if there is one, and what follows it. -/
def takeSign : List Char → Bool × List Char
  | '-' :: rest => (true, rest)
  | '+' :: rest => (false, rest)
  | rest => (false, rest)

namespace Decimal

/-- The exponent after the mark for it, if the text is nothing else. -/
def exponentOf? (text : List Char) : Option Int :=
  match text with
  | [] => some 0
  | c :: rest =>
    if c = 'e' ∨ c = 'E' then
      let (negative, digits) := takeSign rest
      if digits.isEmpty ∨ !digits.all Char.isDigit then none
      else
        let n := digitsValue 0 digits
        some (if negative then -n else n)
    else none

/-- The number that a text writes: digits with at most one point among, before or after them, a sign in
front and an exponent at the end at will. -/
def ofText? (text : List Char) : Option Decimal := do
  let (negative, body) := takeSign text
  let whole := body.takeWhile Char.isDigit
  let rest := body.dropWhile Char.isDigit
  let (fraction, rest) :=
    match rest with
    | '.' :: rest => (rest.takeWhile Char.isDigit, rest.dropWhile Char.isDigit)
    | rest => ([], rest)
  if whole.isEmpty && fraction.isEmpty then none
  else
    let exponent ← exponentOf? rest
    some ⟨negative, digitsValue (digitsValue 0 whole) fraction, exponent - fraction.length⟩

/-- The number written without an exponent, and with a point only where it is needed. -/
def toPlain (d : Decimal) : List Char :=
  let sign := if d.negative then ['-'] else []
  let digits := Nat.toDigits 10 d.digits
  let body :=
    if 0 ≤ d.exponent then digits ++ List.replicate d.exponent.toNat '0'
    else
      let places := (-d.exponent).toNat
      let padded := List.replicate (places + 1 - digits.length) '0' ++ digits
      padded.take (padded.length - places) ++ '.' :: padded.drop (padded.length - places)
  sign ++ body

end Decimal

end Descent
