import Descent.Pattern.Escape

/-!
# Text in TOML

Strings, the keys that are made of strings or bare words, and what may stand between the parts of a
line: blanks, comments and line ends.
-/

namespace Descent.Toml

/-- What follows the blanks of a line. -/
def skipBlanks (chars : List Char) : List Char := chars.dropWhile fun c => c == ' ' || c == '\t'

/-- What follows the end of a line. -/
def lineEnd? : List Char → Option (List Char)
  | '\n' :: rest => some rest
  | '\r' :: '\n' :: rest => some rest
  | _ => none

/-- Whether a character can stand for itself in strings and comments: the tab and everything that is no
control character. -/
def isOrdinary (c : Char) : Bool := c == '\t' || (0x20 ≤ c.toNat && c.toNat != 0x7F)

/-- What follows a comment, if one starts here. -/
def skipComment : List Char → List Char
  | '#' :: rest => rest.dropWhile isOrdinary
  | rest => rest

/-- What follows the end of a line after blanks and a comment; the end of the document ends a line, too. -/
def lineRest? (chars : List Char) : Option (List Char) :=
  match skipComment (skipBlanks chars) with
  | [] => some []
  | rest => lineEnd? rest

/-- What follows blanks, comments and line ends. Every round takes at least one character. -/
def skipLines : Nat → List Char → List Char
  | 0, chars => chars
  | fuel + 1, chars =>
    let rest := skipComment (skipBlanks chars)
    match lineEnd? rest with
    | some rest => skipLines fuel rest
    | none => rest

/-- The character that a hexadecimal escape stands for. -/
def hexEscape? (count : Nat) (chars : List Char) : Option (Char × List Char) := do
  let digits := chars.take count
  if digits.length < count then none
  else
    let code ← Pattern.hexNumber? digits
    let c ← Pattern.charOfCode? code
    some (c, chars.drop count)

/-- The character that an escape stands for, after its backslash. -/
def escape? : List Char → Option (Char × List Char)
  | 'b' :: rest => some ('\x08', rest)
  | 'f' :: rest => some ('\x0c', rest)
  | 'n' :: rest => some ('\n', rest)
  | 'r' :: rest => some ('\r', rest)
  | 't' :: rest => some ('\t', rest)
  | '"' :: rest => some ('"', rest)
  | '\\' :: rest => some ('\\', rest)
  | 'u' :: rest => hexEscape? 4 rest
  | 'U' :: rest => hexEscape? 8 rest
  | _ => none

/-- The inside of a string in double quotes and what follows the closing one. `read` holds what was read,
last character first. -/
def basicInside : Nat → List Char → List Char → Option (List Char × List Char)
  | 0, _, _ => none
  | _ + 1, _, [] => none
  | fuel + 1, read, c :: rest =>
    if c = '"' then some (read.reverse, rest)
    else if c = '\\' then
      match escape? rest with
      | some (c, rest) => basicInside fuel (c :: read) rest
      | none => none
    else if isOrdinary c then basicInside fuel (c :: read) rest
    else none

/-- The inside of a string in single quotes and what follows the closing one. -/
def literalInside (read : List Char) : List Char → Option (List Char × List Char)
  | [] => none
  | c :: rest =>
    if c = '\x27' then some (read.reverse, rest)
    else if isOrdinary c then literalInside (c :: read) rest
    else none

/-- The closing of a string that ends with three of the given quotes: up to two more may stand before
them and belong to the string. The result is the number of those, and what follows. -/
def closing? (quote : Char) (chars : List Char) : Option (Nat × List Char) :=
  let quotes := (chars.takeWhile (· == quote)).length
  if quotes < 3 then none else some (min (quotes - 3) 2, chars.drop (min quotes 5))

/-- What follows blanks and line ends of all kinds. -/
def skipAllBlanks : List Char → List Char
  | '\r' :: '\n' :: rest => skipAllBlanks rest
  | c :: rest => if c == ' ' || c == '\t' || c == '\n' then skipAllBlanks rest else c :: rest
  | [] => []

/-- The inside of a string over several lines in double quotes, and what follows its end. A backslash at
the end of a line takes away the blanks and line ends after it. -/
def multiBasicInside : Nat → List Char → List Char → Option (List Char × List Char)
  | 0, _, _ => none
  | _ + 1, _, [] => none
  | fuel + 1, read, c :: rest =>
    if c = '"' then
      match closing? '"' (c :: rest) with
      | some (extra, after) => some ((List.replicate extra '"' ++ read).reverse, after)
      | none => multiBasicInside fuel (c :: read) rest
    else if c = '\\' then
      match escape? rest with
      | some (c, rest) => multiBasicInside fuel (c :: read) rest
      | none =>
        if (lineEnd? (skipBlanks rest)).isSome then
          multiBasicInside fuel read (skipAllBlanks rest)
        else none
    else
      match lineEnd? (c :: rest) with
      | some after => multiBasicInside fuel ('\n' :: read) after
      | none => if isOrdinary c then multiBasicInside fuel (c :: read) rest else none

/-- The inside of a string over several lines in single quotes, and what follows its end. -/
def multiLiteralInside : Nat → List Char → List Char → Option (List Char × List Char)
  | 0, _, _ => none
  | _ + 1, _, [] => none
  | fuel + 1, read, c :: rest =>
    if c = '\x27' then
      match closing? '\x27' (c :: rest) with
      | some (extra, after) => some ((List.replicate extra '\x27' ++ read).reverse, after)
      | none => multiLiteralInside fuel (c :: read) rest
    else
      match lineEnd? (c :: rest) with
      | some after => multiLiteralInside fuel ('\n' :: read) after
      | none => if isOrdinary c then multiLiteralInside fuel (c :: read) rest else none

/-- The text without a line end at its start. -/
def dropLineEnd (chars : List Char) : List Char := (lineEnd? chars).getD chars

/-- A string on one line, and what follows. -/
def lineString? : List Char → Option (List Char × List Char)
  | '"' :: rest => basicInside (rest.length + 1) [] rest
  | '\x27' :: rest => literalInside [] rest
  | _ => none

/-- A string of any kind, and what follows. -/
def string? : List Char → Option (List Char × List Char)
  | '"' :: '"' :: '"' :: rest => multiBasicInside (rest.length + 1) [] (dropLineEnd rest)
  | '\x27' :: '\x27' :: '\x27' :: rest => multiLiteralInside (rest.length + 1) [] (dropLineEnd rest)
  | chars => lineString? chars

/-- Whether a character can stand in a bare key. -/
def isBare (c : Char) : Bool := c.isAlphanum || c == '_' || c == '-'

/-- One part of a key, and what follows. -/
def keyPart? (chars : List Char) : Option (String × List Char) :=
  let word := chars.takeWhile isBare
  if word.isEmpty then (lineString? chars).map fun (s, rest) => (String.ofList s, rest)
  else some (String.ofList word, chars.dropWhile isBare)

/-- The parts of a key, which are separated by points, and what follows the blanks after it. -/
def key? : Nat → List Char → Option (List String × List Char)
  | 0, _ => none
  | fuel + 1, chars => do
    let (part, rest) ← keyPart? (skipBlanks chars)
    match skipBlanks rest with
    | '.' :: rest =>
      let (parts, rest) ← key? fuel rest
      some (part :: parts, rest)
    | rest => some ([part], rest)

end Descent.Toml
