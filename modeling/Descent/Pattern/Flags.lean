import Descent.Unicode.CaseFold
import Descent.Unicode.Property
import Descent.Pattern.Node

/-!
# Flags and blanks

What a pattern means depends on flags that it may set on the way: whether case counts, what the dot
and the anchors mean, and whether blanks and comments between its parts are left out.
-/

namespace Descent.Pattern

/-- The flags in force at a place of a pattern. -/
structure Flags where
  /-- Case does not count. -/
  anyCase : Bool
  /-- The anchors also match at line ends. -/
  multiLine : Bool
  /-- The dot also matches line ends. -/
  dotAll : Bool
  /-- Greedy and lazy repetition change places. -/
  swapGreed : Bool
  /-- Classes reach beyond ASCII. -/
  unicode : Bool
  /-- A carriage return ends a line, too. -/
  crlf : Bool
  /-- Blanks and comments are left out. -/
  verbose : Bool
  deriving DecidableEq, Repr

/-- The flags at the start of a pattern. -/
def Flags.initial : Flags := ⟨false, false, false, false, true, false, false⟩

/-- The flags with the one that a letter stands for switched on or off. -/
def Flags.switch (f : Flags) (on : Bool) : Char → Option Flags
  | 'i' => some { f with anyCase := on }
  | 'm' => some { f with multiLine := on }
  | 's' => some { f with dotAll := on }
  | 'U' => some { f with swapGreed := on }
  | 'u' => some { f with unicode := on }
  | 'R' => some { f with crlf := on }
  | 'x' => some { f with verbose := on }
  | _ => none

/-- Reads flags up to a colon or a closing parenthesis, which is returned with what follows it and the
letters seen, last first. Letters after a hyphen are switched off. No letter occurs twice, and a
hyphen is not the last of them. -/
def readFlags (flags : Flags) (seen : List Char) :
    List Char → Option (Flags × List Char × Char × List Char)
  | [] => none
  | c :: rest =>
    if c = ':' ∨ c = ')' then
      if seen.head? = some '-' then none else some (flags, seen, c, rest)
    else if seen.contains c then none
    else if c = '-' then readFlags flags (c :: seen) rest
    else
      match flags.switch (!seen.contains '-') c with
      | some flags => readFlags flags (c :: seen) rest
      | none => none

/-- Whether a character counts as blank. -/
def isBlank (c : Char) : Bool := Unicode.whiteSpace.contains c

/-- What follows blanks and comments, which run from a hash to the end of the line. -/
def skipBlanks (inComment : Bool) : List Char → List Char
  | [] => []
  | c :: rest =>
    if inComment then skipBlanks (c != '\n') rest
    else if isBlank c then skipBlanks false rest
    else if c = '#' then skipBlanks true rest
    else c :: rest

/-- Leaves out blanks and comments where the flags say so. -/
def Flags.skip (f : Flags) (chars : List Char) : List Char :=
  if f.verbose then skipBlanks false chars else chars

/-- The characters up to the first that is not accepted, and what follows from there; where the flags
say so, blanks and comments are left out between them. -/
def Flags.span (f : Flags) (accept : Char → Bool) (inComment : Bool) :
    List Char → List Char × List Char
  | [] => ([], [])
  | c :: rest =>
    if inComment then f.span accept (c != '\n') rest
    else if f.verbose && isBlank c then f.span accept false rest
    else if f.verbose && c == '#' then f.span accept true rest
    else if accept c then
      let (taken, rest) := f.span accept false rest
      (c :: taken, rest)
    else ([], c :: rest)

/-- Whether a mark stands at the front, and what follows it. -/
def marked (mark : Char) : List Char → Bool × List Char
  | [] => (false, [])
  | c :: rest => if c = mark then (true, rest) else (false, c :: rest)

/-- The set with what differs only in case, where the flags say so. -/
def Flags.fold (f : Flags) (s : CharSet) : CharSet :=
  if f.anyCase then
    if f.unicode then Unicode.closeUnderCase s
    else (Unicode.closeUnderCase s).inter ⟨[⟨0, 0x7F⟩]⟩
  else s

/-- The set or its complement, with what differs only in case. A set that does not reach beyond ASCII
by its flags must not do so. -/
def Flags.finish (f : Flags) (negated : Bool) (s : CharSet) : Option CharSet :=
  let s := f.fold s
  let s := if negated then s.complement else s
  if f.unicode || s.within 0x7F then some s else none

/-- The classes that a backslash and a letter stand for. -/
def Flags.shorthand (f : Flags) (c : Char) : Option CharSet :=
  let set := fun (wide narrow : CharSet) => if f.unicode then wide else narrow
  let digit := set Unicode.decimalDigit ⟨[⟨48, 57⟩]⟩
  let space := set Unicode.whiteSpace ⟨[⟨9, 13⟩, ⟨32, 32⟩]⟩
  let word := set wordChars asciiWordChars
  let plain := { f with anyCase := false }
  match c with
  | 'd' => some digit
  | 's' => some space
  | 'w' => some word
  | 'D' => plain.finish true digit
  | 'S' => plain.finish true space
  | 'W' => plain.finish true word
  | _ => none

end Descent.Pattern
