/-!
# Text without terminal sequences

What is repeated from a command line is shown without the sequences by which a terminal is told to do
something, and without control characters other than blanks and line ends.
-/

namespace Descent.Unstyled

/-- Where a character stands. -/
inductive Position
  /-- Outside every sequence. -/
  | outside
  /-- After an escape. -/
  | escape
  /-- In a sequence that ends with a letter. -/
  | control
  /-- In a string that a bell, a cancel or an escape ends. -/
  | string
  deriving DecidableEq, Repr

/-- Whether a character is a tab, a line end or the like. -/
def isLayout (c : Char) : Bool := c == '\t' || c == '\n' || c == '\x0c' || c == '\r'

/-- Where the next character stands. -/
def next (p : Position) (c : Char) : Position :=
  if c = '\x1b' then .escape
  else if c = '\x18' ∨ c = '\x1a' then .outside
  else
    match p with
    | .outside => .outside
    | .escape =>
      if c = '[' then .control
      else if c ∈ [']', 'P', 'X', '^', '_'] then .string
      else if '0' ≤ c ∧ c ≤ '~' then .outside
      else .escape
    | .control => if '@' ≤ c ∧ c ≤ '~' then .outside else .control
    | .string => if c = '\x07' then .outside else .string

/-- Whether a character is shown. -/
def isShown (p : Position) (c : Char) : Bool :=
  match p with
  | .outside => isLayout c || (0x20 ≤ c.toNat && c.toNat != 0x7F)
  | .escape | .control => isLayout c
  | .string => false

/-- The characters that are shown, from a position on. -/
def shownFrom (p : Position) : List Char → List Char
  | [] => []
  | c :: rest =>
    let shown := shownFrom (next p c) rest
    if isShown p c then c :: shown else shown

/-- The text as it is shown. -/
def text (chars : List Char) : List Char := shownFrom .outside chars

end Descent.Unstyled
