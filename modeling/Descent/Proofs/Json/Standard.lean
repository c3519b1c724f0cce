import Descent.Proofs.Language

/-!
# JSON as the standard defines it

Here is the standard's grammar of JSON texts. What has no structure is a regular language; values,
items and lists of items are derived, and a derivation knows how deep arrays and objects nest in it.
As in the standard, blanks belong to the brackets and separators that they surround.
-/

namespace Descent.Json.Standard

open Computability

/-! ## Words -/

/-- Any number of blanks. -/
def ws : Language Char := (single (· ∈ [' ', '\t', '\n', '\r']))∗

/-- A bracket or separator, with blanks around it. -/
def structural (c : Char) : Language Char := ws * {[c]} * ws

/-- A digit. -/
def digit : Language Char := single fun c => '0' ≤ c ∧ c ≤ '9'

/-- A digit other than zero. -/
def nonzero : Language Char := single fun c => '1' ≤ c ∧ c ≤ '9'

/-- The digits of a whole number, which has no leading zeros. -/
def int : Language Char := {['0']} + nonzero * digit∗

/-- A decimal point and the digits after it. -/
def frac : Language Char := {['.']} * (digit * digit∗)

/-- A power of ten. -/
def exp : Language Char :=
  single (· ∈ ['e', 'E']) * (single (· ∈ ['+', '-']) + 1) * (digit * digit∗)

/-- A number. -/
def number : Language Char := ({['-']} + 1) * int * (frac + 1) * (exp + 1)

/-- A hexadecimal digit. -/
def hexdig : Language Char :=
  single fun c => '0' ≤ c ∧ c ≤ '9' ∨ 'a' ≤ c ∧ c ≤ 'f' ∨ 'A' ≤ c ∧ c ≤ 'F'

/-- A character that stands for itself in a string. -/
def unescaped : Language Char := single fun c => '\x20' ≤ c ∧ c ≠ '"' ∧ c ≠ '\\'

/-- A backslash and what can follow it. -/
def escape : Language Char :=
  {['\\']} *
    (single (· ∈ ['"', '\\', '/', 'b', 'f', 'n', 'r', 't']) + {['u']} * hexdig ^ 4)

/-- A string. -/
def string : Language Char := {['"']} * (unescaped + escape)∗ * {['"']}

/-- A value that is neither an array nor an object. -/
def scalar : Language Char :=
  {"false".toList} + {"null".toList} + {"true".toList} + number + string

/-! ## Values -/

/-- The values that contain others. -/
inductive Container
  | array
  | object

/-- The opening bracket. -/
def Container.opening : Container → Char
  | array => '['
  | object => '\x7b'

/-- The closing bracket. -/
def Container.closing : Container → Char
  | array => ']'
  | object => '\x7d'

/-- What can be derived. -/
inductive Symbol
  | value
  /-- What stands between two commas. -/
  | item (k : Container)
  /-- One item or more. -/
  | items (k : Container)

/-- `Derives symbol depth m`: the characters are what the symbol stands for, and arrays and objects
nest just so deep in them. -/
inductive Derives : Symbol → Nat → List Char → Prop
  | scalar {m} (hm : m ∈ scalar) : Derives .value 0 m
  | empty (k : Container) {o c} (ho : o ∈ structural k.opening) (hc : c ∈ structural k.closing) :
      Derives .value 1 (o ++ c)
  | full (k : Container) {d o m c} (ho : o ∈ structural k.opening) (hm : Derives (.items k) d m)
      (hc : c ∈ structural k.closing) : Derives .value (d + 1) (o ++ m ++ c)
  | element {d m} (hm : Derives .value d m) : Derives (.item .array) d m
  | member {d n c m} (hn : n ∈ string) (hc : c ∈ structural ':') (hm : Derives .value d m) :
      Derives (.item .object) d (n ++ c ++ m)
  | last {k d m} (hm : Derives (.item k) d m) : Derives (.items k) d m
  | more {k d m c e n} (hm : Derives (.item k) d m) (hc : c ∈ structural ',')
      (hn : Derives (.items k) e n) : Derives (.items k) (max d e) (m ++ c ++ n)

/-- What a symbol stands for, with arrays and objects nesting just so deep. -/
def derived (symbol : Symbol) (depth : Nat) : Language Char := {m | Derives symbol depth m}

/-- The JSON texts in which arrays and objects nest just so deep. -/
def text (depth : Nat) : Language Char := ws * derived .value depth * ws

end Descent.Json.Standard
