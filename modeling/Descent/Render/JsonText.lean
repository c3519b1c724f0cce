/-!
# Text in JSON

A string of a JSON document stands in double quotes. Quotes, backslashes and control characters are
escaped, the common ones by a letter and the others by four hexadecimal digits; everything else stands
for itself.
-/

namespace Descent.JsonText

/-- Four hexadecimal digits. -/
def fourDigits (n : Nat) : List Char :=
  let digits := Nat.toDigits 16 n
  List.replicate (4 - digits.length) '0' ++ digits

/-- One character inside a string. -/
def escape (c : Char) : List Char :=
  if c = '"' ∨ c = '\\' then ['\\', c]
  else if c = '\x08' then ['\\', 'b']
  else if c = '\x0c' then ['\\', 'f']
  else if c = '\n' then ['\\', 'n']
  else if c = '\r' then ['\\', 'r']
  else if c = '\t' then ['\\', 't']
  else if c.toNat < 0x20 then ['\\', 'u'] ++ fourDigits c.toNat
  else [c]

/-- A text as a string of a document. -/
def string (s : List Char) : List Char := ['"'] ++ s.flatMap escape ++ ['"']

end Descent.JsonText
