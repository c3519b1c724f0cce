import Descent.Number.Binary

/-!
# Text that looks like something else

Plain text in YAML that spells nothing, a truth value or a number is read as that. A text that looks so
has to be quoted in order to stay a text.
-/

namespace Descent.Yaml

/-- The spellings of nothing. The empty text is one of them. -/
def nullTexts : List String := ["", "null", "Null", "NULL", "~"]

/-- The spellings of the truth values. -/
def boolTexts : List String := ["true", "True", "TRUE", "false", "False", "FALSE"]

/-- The digits that a base allows, up to base sixteen, with their values. -/
def digitValue? (base : Nat) (c : Char) : Option Nat :=
  let value :=
    if c.isDigit then c.toNat - '0'.toNat
    else if 'a' ≤ c ∧ c ≤ 'f' then c.toNat - 'a'.toNat + 10
    else if 'A' ≤ c ∧ c ≤ 'F' then c.toNat - 'A'.toNat + 10
    else 16
  if value < base then some value else none

/-- The number that a text writes in a base, if it is nothing but digits. -/
def natInBase? (base : Nat) (text : List Char) : Option Nat :=
  if text.isEmpty then none
  else text.foldlM (fun n c => (digitValue? base c).map fun d => n * base + d) 0

/-- A number of several digits that starts with a zero counts as text. -/
def hasLeadingZero (text : List Char) : Bool :=
  let digits := (takeSign text).2
  match digits with
  | '0' :: rest => !rest.isEmpty && rest.all Char.isDigit
  | _ => false

/-- The base that the first two characters of a number announce, and its digits. -/
def announcedBase? : List Char → Option (Nat × List Char)
  | '0' :: 'x' :: rest => some (16, rest)
  | '0' :: 'o' :: rest => some (8, rest)
  | '0' :: 'b' :: rest => some (2, rest)
  | _ => none

/-- Whether a text is read as a whole number, which is less than `2 ^ 128` and not less than
`-2 ^ 127`. -/
def isWhole (text : List Char) : Bool :=
  let (negative, body) := takeSign text
  let limit := if negative then Nat.pow 2 127 + 1 else Nat.pow 2 128
  let based :=
    match announcedBase? body with
    | some (base, digits) => natInBase? base digits
    | none => if hasLeadingZero text then none else natInBase? 10 body
  based.any (· < limit)

/-- The spellings of the numbers that are not finite. -/
def specialTexts : List String :=
  [".inf", ".Inf", ".INF", "+.inf", "+.Inf", "+.INF", "-.inf", "-.Inf", "-.INF", ".nan", ".NaN", ".NAN"]

/-- Whether a text is read as a number in double precision. One that is too great for it is not. -/
def isFloat (text : List Char) : Bool :=
  !hasLeadingZero text &&
    (specialTexts.contains (String.ofList text) ||
      (Decimal.ofText? text).any fun d => (Binary.ofDecimal d).isFinite)

/-- Whether a text would not be read as a text if it stood there plainly. A number of several digits
that starts with a zero is a text to some readers and a number to others. -/
def isAmbiguous (text : List Char) : Bool :=
  nullTexts.contains (String.ofList text) || boolTexts.contains (String.ofList text) ||
    isWhole text || hasLeadingZero text || isFloat text

end Descent.Yaml
