import Descent.Pattern.Flags
import Descent.Pattern.Property

/-!
# Escapes

What a backslash introduces, inside a bracketed class and outside: a character, a class of
characters, or a condition on the place.
-/

namespace Descent.Pattern

/-- What an escape stands for. -/
inductive Atom
  /-- A character. `byte` tells that it was written as two hexadecimal digits. -/
  | char (c : Char) (byte : Bool)
  /-- A class. -/
  | set (s : CharSet)
  /-- A condition. -/
  | look (l : Look)

/-- Characters that mean something in a pattern, and stand for themselves after a backslash. -/
def metaChars : List Char :=
  ['\\', '.', '+', '*', '?', '(', ')', '|', '[', ']', '\x7b', '\x7d', '^', '$', '#', '&', '-', '~']

/-- Whether a character stands for itself after a backslash: all of ASCII but letters, digits and the
angle brackets. -/
def standsForItself (c : Char) : Bool :=
  metaChars.contains c || (c.toNat < 0x80 && !c.isAlphanum && c != '<' && c != '>')

/-- The value of a hexadecimal digit. -/
def hexValue? (c : Char) : Option Nat :=
  if c.isDigit then some (c.toNat - '0'.toNat)
  else if 'a' ≤ c ∧ c ≤ 'f' then some (c.toNat - 'a'.toNat + 10)
  else if 'A' ≤ c ∧ c ≤ 'F' then some (c.toNat - 'A'.toNat + 10)
  else none

/-- The number that hexadecimal digits write. -/
def hexNumber? (digits : List Char) : Option Nat :=
  if digits.isEmpty then none
  else digits.foldlM (fun n d => (hexValue? d).map fun v => n * 16 + v) 0

/-- The character with the given code, if there is one. -/
def charOfCode? (code : Nat) : Option Char :=
  if code < 0xD800 ∨ (0xDFFF < code ∧ code ≤ maxCode) then some (Char.ofNat code) else none

/-- Exactly `count` hexadecimal digits, and what follows. -/
def readHexDigits (f : Flags) : Nat → List Char → Option (List Char × List Char)
  | 0, rest => some ([], rest)
  | _ + 1, [] => none
  | count + 1, c :: rest =>
    if (hexValue? c).isSome then
      (readHexDigits f count (f.skip rest)).map fun (digits, rest) => (c :: digits, rest)
    else none

/-- A character written in hexadecimal, after the letter that introduces it: in braces with any number
of digits, or with as many as the letter demands. -/
def readHexChar (f : Flags) (count : Nat) (byte : Bool) (chars : List Char) :
    Option (Atom × List Char) := do
  match f.skip chars with
  | '\x7b' :: rest =>
    let (digits, rest) := f.span (· != '\x7d') false rest
    let code ← hexNumber? digits
    let c ← charOfCode? code
    match rest with
    | _ :: rest => some (.char c false, f.skip rest)
    | [] => none
  | rest =>
    let (digits, rest) ← readHexDigits f count rest
    let code ← hexNumber? digits
    let c ← charOfCode? code
    some (.char c byte, rest)

/-- The parts of a text before and after the first occurrence of a separator. -/
def splitAt? (separator : List Char) : List Char → Option (List Char × List Char)
  | [] => none
  | c :: rest =>
    if separator.isPrefixOf (c :: rest) then some ([], (c :: rest).drop separator.length)
    else (splitAt? separator rest).map fun (front, back) => (c :: front, back)

/-- The property that a text in braces asks for, and whether its complement is meant. -/
def propertyQuery (name : List Char) : PropertyQuery × Bool :=
  match splitAt? ['!', '='] name with
  | some (p, v) => (.value p v, true)
  | none =>
    match splitAt? [':'] name with
    | some (p, v) => (.value p v, false)
    | none =>
      match splitAt? ['='] name with
      | some (p, v) => (.value p v, false)
      | none => (.name name, false)

/-- What asks for a property: a text in braces, or one letter. -/
def readQuery (f : Flags) (chars : List Char) : Option ((PropertyQuery × Bool) × List Char) :=
  match f.skip chars with
  | [] => none
  | '\x7b' :: rest =>
    match f.span (· != '\x7d') false rest with
    | (name, _ :: rest) => some (propertyQuery name, rest)
    | (_, []) => none
  | c :: rest => if c = '\\' then none else some ((.name [c], false), f.skip rest)

/-- A class of characters with a property, after the letter that introduces it. -/
def readProperty (sets : Sets) (f : Flags) (negated : Bool) (chars : List Char) :
    Option (Atom × List Char) := do
  let ((query, flipped), rest) ← readQuery f chars
  if f.unicode then
    let set ← sets query
    let set ← f.finish (negated != flipped) set
    some (.set set, rest)
  else none

/-- A condition on words named in braces after the letter for a word boundary. Where the braces hold
anything but letters and hyphens, they belong to a repetition. -/
def readWordCondition (f : Flags) (ascii : Bool) (chars : List Char) : Option (Atom × List Char) :=
  let nameChar := fun (c : Char) => c.isAlpha || c == '-'
  match chars with
  | '\x7b' :: rest =>
    match f.skip rest with
    | [] => none
    | c :: inner =>
      if nameChar c then
        match f.span nameChar false (c :: inner) with
        | (name, '\x7d' :: rest) =>
          let known : List (String × Look) :=
            [("start", .wordStart ascii), ("end", .wordEnd ascii),
             ("start-half", .wordStartHalf ascii), ("end-half", .wordEndHalf ascii)]
          (known.lookup (String.ofList name)).map fun l => (.look l, rest)
        | _ => none
      else some (.look (.wordBoundary ascii), chars)
  | _ => some (.look (.wordBoundary ascii), chars)

/-- What follows a backslash. -/
def readEscape (sets : Sets) (f : Flags) : List Char → Option (Atom × List Char)
  | [] => none
  | 'x' :: rest => readHexChar f 2 true rest
  | 'u' :: rest => readHexChar f 4 false rest
  | 'U' :: rest => readHexChar f 8 false rest
  | 'p' :: rest => readProperty sets f false rest
  | 'P' :: rest => readProperty sets f true rest
  | 'a' :: rest => some (.char '\x07' false, rest)
  | 'f' :: rest => some (.char '\x0c' false, rest)
  | 't' :: rest => some (.char '\t' false, rest)
  | 'n' :: rest => some (.char '\n' false, rest)
  | 'r' :: rest => some (.char '\r' false, rest)
  | 'v' :: rest => some (.char '\x0b' false, rest)
  | 'A' :: rest => some (.look .textStart, rest)
  | 'z' :: rest => some (.look .textEnd, rest)
  | 'b' :: rest => readWordCondition f (!f.unicode) rest
  | 'B' :: rest => some (.look (.notWordBoundary (!f.unicode)), rest)
  | '<' :: rest => some (.look (.wordStart (!f.unicode)), rest)
  | '>' :: rest => some (.look (.wordEnd (!f.unicode)), rest)
  | c :: rest =>
    if standsForItself c then some (.char c false, rest)
    else (f.shorthand c).map fun s => (.set s, rest)

end Descent.Pattern
