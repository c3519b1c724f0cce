import Descent.Number.Decimal

/-!
# Numbers in double precision

A finite number is `mantissa * 2 ^ exponent` with a mantissa below `2 ^ 53` and an exponent from
`-1074` to `971`. A decimal number is rounded to the nearest of them, a tie to the even mantissa, and
a number is written with the fewest digits that are rounded to it.
-/

namespace Descent

/-- A number in double precision. -/
inductive Binary
  | finite (negative : Bool) (mantissa : Nat) (exponent : Int)
  | infinite (negative : Bool)
  | nan
  deriving DecidableEq, Inhabited, Repr

/-- The quotient rounded to the nearest whole number, a tie to the even one. -/
def roundDiv (num den : Nat) : Nat :=
  let q := num / den
  let r := num % den
  if 2 * r < den then q
  else if den < 2 * r then q + 1
  else if q % 2 = 0 then q else q + 1

namespace Binary

/-- The least exponent. -/
def minExponent : Int := -1074

/-- The greatest exponent. -/
def maxExponent : Int := 971

/-- A quotient as a fraction of units of a power of two: `num / den = (f.1 / f.2) * 2 ^ q`. -/
def inUnits (num den : Nat) (q : Int) : Nat × Nat :=
  if 0 ≤ q then (num, den * Nat.pow 2 q.toNat) else (num * Nat.pow 2 (-q).toNat, den)

/-- The number nearest to a positive quotient. -/
def ofRatio (negative : Bool) (num den : Nat) : Binary :=
  let guess : Int := (Nat.log2 num : Int) - Nat.log2 den - 53
  let (n, d) := inUnits num den guess
  let q := max minExponent (if n / d < Nat.pow 2 53 then guess else guess + 1)
  let (n, d) := inUnits num den q
  let m := roundDiv n d
  let (m, q) := if m = Nat.pow 2 53 then (Nat.pow 2 52, q + 1) else (m, q)
  if maxExponent < q then infinite negative else finite negative m q

/-- The number nearest to a decimal number. Beyond the exponents that are told apart here, every number
is too great or too small. -/
def ofDecimal (d : Decimal) : Binary :=
  if d.digits = 0 then finite d.negative 0 0
  else
    let magnitude : Int := (Nat.toDigits 10 d.digits).length + d.exponent
    if 400 < magnitude then infinite d.negative
    else if magnitude < -400 then finite d.negative 0 0
    else if 0 ≤ d.exponent then
      ofRatio d.negative (d.digits * Nat.pow 10 d.exponent.toNat) 1
    else ofRatio d.negative d.digits (Nat.pow 10 (-d.exponent).toNat)

/-- Whether the number is finite. -/
def isFinite : Binary → Bool
  | finite .. => true
  | _ => false

/-- Whether the number is zero. -/
def isZero : Binary → Bool
  | finite _ m _ => m == 0
  | _ => false

/-- Whether `digits * 10 ^ k` is rounded to the positive number with mantissa `m` and exponent `q`,
and its distance from it in some unit common to all `digits` and `k` below. -/
def distance? (m : Nat) (q : Int) (digits : Nat) (k : Int) : Option Nat :=
  let scale : Nat → Nat := fun x => x * Nat.pow 2 (q + 1076).toNat * Nat.pow 10 400
  let value := digits * Nat.pow 2 1076 * Nat.pow 10 (k + 400).toNat
  let middle := scale m
  let half := scale 1 / 2
  let below := if m = Nat.pow 2 52 ∧ minExponent < q then half / 2 else half
  let inside :=
    if m % 2 = 0 then middle ≤ value + below ∧ value ≤ middle + half
    else middle < value + below ∧ value < middle + half
  if inside then some (max value middle - min value middle) else none

/-- The decimal number with `count` digits that is rounded to the given positive number and nearest to
it, if there is one; of two at the same distance it is the greater. -/
def withDigits? (m : Nat) (q : Int) (magnitude : Int) (count : Nat) : Option (Nat × Int) :=
  let k := magnitude - count
  let (n, d) := inUnits m 1 (-q)
  let lower :=
    if 0 ≤ k then n / (d * Nat.pow 10 k.toNat) else n * Nat.pow 10 (-k).toNat / d
  match distance? m q lower k, distance? m q (lower + 1) k with
  | some a, some b => some (if a < b then (lower, k) else (lower + 1, k))
  | some _, none => some (lower, k)
  | none, some _ => some (lower + 1, k)
  | none, none => none

/-- The number of digits before the point of a positive number, negative for zeros after it. -/
def magnitude (m : Nat) (q : Int) : Int :=
  if 0 ≤ q then (Nat.toDigits 10 (m * Nat.pow 2 q.toNat)).length
  else
    let places := (-q).toNat
    (Nat.toDigits 10 (m * Nat.pow 5 places)).length - (places : Int)

/-- The digits without the zeros at their end. -/
def trimZeros : Nat → Nat → Int → Nat × Int
  | 0, digits, k => (digits, k)
  | fuel + 1, digits, k =>
    if digits % 10 = 0 ∧ digits ≠ 0 then trimZeros fuel (digits / 10) (k + 1) else (digits, k)

/-- The decimal number with the fewest digits that is rounded to a finite number. -/
def shortest (negative : Bool) (m : Nat) (q : Int) : Decimal :=
  if m = 0 then ⟨negative, 0, 0⟩
  else
    let size := magnitude m q
    match (List.range 17).findSome? fun n => withDigits? m q size (n + 1) with
    | some (digits, k) =>
      let (digits, k) := trimZeros 20 digits k
      ⟨negative, digits, k⟩
    | none => ⟨negative, m, 0⟩

/-- The number as text, without an exponent. -/
def toText : Binary → String
  | finite negative m q => String.ofList (shortest negative m q).toPlain
  | infinite negative => if negative then "-inf" else "inf"
  | nan => "NaN"

/-- The number as text, with a point in any case. -/
def toPointText (b : Binary) : String :=
  let text := b.toText
  if b.isFinite && !text.toList.contains '.' then text ++ ".0" else text

end Binary

end Descent
