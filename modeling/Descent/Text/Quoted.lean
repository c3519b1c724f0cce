import Descent.Unicode.Category
import Descent.Unicode.Property

/-!
# Quoted text

Text is shown to people between quotes, with everything escaped that would not show or that would
end the quotation. A character that shows stands for itself; the line ends, the tab and the character
zero have short escapes; all others are written as their code in hexadecimal.
-/

namespace Descent.Quoted

/-- Characters that do not show by themselves: blanks, controls, unassigned codes, and marks that only
extend the character before them. -/
def hidden : CharSet := Unicode.blankOrUnassigned.union Unicode.graphemeExtend

/-- Whether a character shows when it stands by itself. In the first half of the first block the answer
is known without the table. -/
def shows (c : Char) : Bool :=
  if c.toNat < 0x20 then false
  else if c.toNat < 0x7F then true
  else !hidden.contains c

/-- The code of a character in hexadecimal, in braces. -/
def codeEscape (c : Char) : List Char :=
  ['\\', 'u', '\x7b'] ++ Nat.toDigits 16 c.toNat ++ ['\x7d']

/-- One character as it is written between two `mark`s. -/
def escape (mark c : Char) : List Char :=
  if c = '\x00' then ['\\', '0']
  else if c = '\t' then ['\\', 't']
  else if c = '\r' then ['\\', 'r']
  else if c = '\n' then ['\\', 'n']
  else if c = '\\' ∨ c = mark then ['\\', c]
  else if shows c then [c]
  else codeEscape c

/-- Text in double quotes. -/
def text (s : List Char) : List Char := ['"'] ++ s.flatMap (escape '"') ++ ['"']

/-- A character in single quotes. -/
def char (c : Char) : List Char := ['\x27'] ++ escape '\x27' c ++ ['\x27']

/-- A string in double quotes. -/
def string (s : String) : String := String.ofList (text s.toList)

end Descent.Quoted
