import Descent.Datum

/-!
# Numbers and times in TOML

Whole numbers in four bases, numbers in double precision, and dates and times, of which only the text
is kept.
-/

namespace Descent.Toml

/-- Digits in groups that single underscores separate, without the underscores, and what follows. An
underscore has digits on both sides. -/
def digitGroups? (accept : Char → Bool) : Nat → List Char → Option (List Char × List Char)
  | 0, _ => none
  | fuel + 1, chars =>
    let digits := chars.takeWhile accept
    let rest := chars.dropWhile accept
    if digits.isEmpty then none
    else
      match rest with
      | '_' :: rest => (digitGroups? accept fuel rest).map fun (more, rest) => (digits ++ more, rest)
      | rest => some (digits, rest)

/-- Digits in groups, and what follows. -/
def digits? (accept : Char → Bool) (chars : List Char) : Option (List Char × List Char) :=
  digitGroups? accept (chars.length + 1) chars

/-- The value of digits in a base. -/
def valueInBase (base : Nat) (digits : List Char) : Nat :=
  digits.foldl (fun n c =>
    n * base + (if c.isDigit then c.toNat - '0'.toNat
      else (c.toLower.toNat - 'a'.toNat) + 10)) 0

/-- A whole number after the mark of its base, and what follows. -/
def based? (base : Nat) (accept : Char → Bool) (chars : List Char) :
    Option (Datum × List Char) := do
  let (digits, rest) ← digits? accept chars
  let n := valueInBase base digits
  if n < 0x8000000000000000 then some (.scalar (.int n), rest) else none

/-- The exponent of a number as text, and what follows; without the mark of an exponent it is empty. -/
def exponent? (chars : List Char) : Option (List Char × List Char) :=
  match chars with
  | c :: rest =>
    if c = 'e' ∨ c = 'E' then
      let (sign, rest) :=
        match rest with
        | '+' :: rest => (['+'], rest)
        | '-' :: rest => (['-'], rest)
        | rest => ([], rest)
      (digits? Char.isDigit rest).map fun (digits, rest) => ('e' :: sign ++ digits, rest)
    else some ([], chars)
  | [] => some ([], [])

/-- The fraction of a number as text, and what follows; without a point it is empty. -/
def fraction? (chars : List Char) : Option (List Char × List Char) :=
  match chars with
  | '.' :: rest => (digits? Char.isDigit rest).map fun (digits, rest) => ('.' :: digits, rest)
  | rest => some ([], rest)

/-- A number in base ten without its sign, and what follows. A whole number of several digits does not
start with a zero. A number with a fraction or an exponent is in double precision, and is refused if it
is too great for that. -/
def unsigned? (negative : Bool) (chars : List Char) : Option (Datum × List Char) := do
  let (whole, rest) ←
    match chars with
    | '0' :: rest => some (['0'], rest)
    | chars => digits? Char.isDigit chars
  let (fraction, rest) ← fraction? rest
  let (exponent, rest) ← exponent? rest
  if fraction.isEmpty && exponent.isEmpty then
    let n := digitsValue 0 whole
    if negative then
      if n ≤ 0x8000000000000000 then some (.scalar (.int (-n)), rest) else none
    else if n < 0x8000000000000000 then some (.scalar (.int n), rest)
    else none
  else
    let d ← Decimal.ofText? (whole ++ fraction ++ exponent)
    let x := Binary.ofDecimal { d with negative := negative }
    if x = .infinite false then none else some (.scalar (.float x), rest)

/-- A number, and what follows. -/
def number? : List Char → Option (Datum × List Char)
  | '0' :: 'x' :: rest =>
    based? 16 (fun c => c.isDigit || ('a' ≤ c && c ≤ 'f') || ('A' ≤ c && c ≤ 'F')) rest
  | '0' :: 'o' :: rest => based? 8 (fun c => '0' ≤ c && c ≤ '7') rest
  | '0' :: 'b' :: rest => based? 2 (fun c => c == '0' || c == '1') rest
  | chars =>
    let (negative, body) := takeSign chars
    match body with
    | 'i' :: 'n' :: 'f' :: rest => some (.scalar (.float (.infinite negative)), rest)
    | 'n' :: 'a' :: 'n' :: rest => some (.scalar (.float .nan), rest)
    | body => unsigned? negative body

/-- A number of exactly `count` digits within limits, and what follows. -/
def fixed? (count least most : Nat) (chars : List Char) : Option (Nat × List Char) :=
  let digits := chars.take count
  if digits.length < count ∨ !digits.all Char.isDigit then none
  else
    let n := digitsValue 0 digits
    if least ≤ n ∧ n ≤ most then some (n, chars.drop count) else none

/-- The text without its first character, if that is the given one. -/
def after? (c : Char) : List Char → Option (List Char)
  | d :: rest => if c = d then some rest else none
  | [] => none

/-- A number with at least `width` digits. -/
def padded (width n : Nat) : List Char :=
  let digits := Nat.toDigits 10 n
  List.replicate (width - digits.length) '0' ++ digits

/-- The number of days of a month. -/
def daysIn (year month : Nat) : Nat :=
  if month = 2 then
    if year % 4 = 0 ∧ (year % 100 ≠ 0 ∨ year % 400 = 0) then 29 else 28
  else if month = 4 ∨ month = 6 ∨ month = 9 ∨ month = 11 then 30
  else 31

/-- A date as text, and what follows. -/
def date? (chars : List Char) : Option (List Char × List Char) := do
  let (year, rest) ← fixed? 4 0 9999 chars
  let rest ← after? '-' rest
  let (month, rest) ← fixed? 2 1 12 rest
  let rest ← after? '-' rest
  let (day, rest) ← fixed? 2 1 (daysIn year month) rest
  some (padded 4 year ++ '-' :: padded 2 month ++ '-' :: padded 2 day, rest)

/-- A time of day as text, and what follows. Of its fraction nine digits count. -/
def time? (chars : List Char) : Option (List Char × List Char) := do
  let (hour, rest) ← fixed? 2 0 23 chars
  let rest ← after? ':' rest
  let (minute, rest) ← fixed? 2 0 59 rest
  let rest ← after? ':' rest
  let (second, rest) ← fixed? 2 0 60 rest
  let clock := padded 2 hour ++ ':' :: padded 2 minute ++ ':' :: padded 2 second
  match rest with
  | '.' :: after =>
    let digits := after.takeWhile Char.isDigit
    if digits.isEmpty then none
    else
      let kept := ((digits.take 9).reverse.dropWhile (· == '0')).reverse
      let fraction := if kept.isEmpty then [] else '.' :: kept
      some (clock ++ fraction, after.dropWhile Char.isDigit)
  | rest => some (clock, rest)

/-- The distance of a time zone as text, and what follows. -/
def zone? : List Char → Option (List Char × List Char)
  | c :: rest =>
    if c = 'Z' ∨ c = 'z' then some (['Z'], rest)
    else if c = '+' ∨ c = '-' then do
      let (hour, rest) ← fixed? 2 0 23 rest
      let rest ← after? ':' rest
      let (minute, rest) ← fixed? 2 0 59 rest
      let sign := if hour = 0 ∧ minute = 0 then '+' else c
      some (sign :: padded 2 hour ++ ':' :: padded 2 minute, rest)
    else none
  | [] => none

/-- A date, a time of day, or both with or without a time zone, as text, and what follows. -/
def moment? (chars : List Char) : Option (Datum × List Char) :=
  let text := fun (t : List Char) => Datum.scalar (.text (String.ofList t))
  match date? chars with
  | none => (time? chars).map fun (t, rest) => (text t, rest)
  | some (date, rest) =>
    let dateOnly := some (text date, rest)
    match rest with
    | c :: after =>
      if c = 'T' ∨ c = 't' ∨ c = ' ' then
        match time? after with
        | none => dateOnly
        | some (time, rest) =>
          match zone? rest with
          | some (zone, rest) => some (text (date ++ 'T' :: time ++ zone), rest)
          | none => some (text (date ++ 'T' :: time), rest)
      else dateOnly
    | [] => dateOnly

end Descent.Toml
