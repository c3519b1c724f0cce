import Descent.Render.Yaml.Resolve

/-!
# Text in YAML

A text that is the value of a key on the outermost level is written in the plainest of four styles that
keeps it: as it stands, in single quotes, in double quotes with escapes, or, if it has several lines,
line by line in a block below the key.
-/

namespace Descent.Yaml

/-- The ways to write a text. -/
inductive Style
  | plain | single | double | block
  deriving DecidableEq, Repr

/-- Whether a character ends a line. -/
def isBreak (c : Char) : Bool :=
  c == '\n' || c == '\r' || c == '\u0085' || c == '\u2028' || c == '\u2029'

/-- Whether a character is blank, ends a line or is the character zero. -/
def isBlankOrBreak (c : Char) : Bool := c == ' ' || c == '\t' || c == '\x00' || isBreak c

/-- Whether a character can stand for itself: no control but the line feed, no mark of the byte order,
and none of the two last characters of the first plane. -/
def isPrintable (c : Char) : Bool :=
  c == '\n' || (0x20 ≤ c.toNat && c.toNat ≤ 0x7E) ||
    (0xA0 ≤ c.toNat && c.toNat != 0xFEFF && c.toNat != 0xFFFE && c.toNat != 0xFFFF)

/-- A character with its neighbours. -/
structure Context where
  before : Option Char
  char : Char
  after : Option Char

/-- The characters of a text with their neighbours, when `before` stands before it. -/
def contextsFrom (before : Option Char) : List Char → List Context
  | [] => []
  | c :: rest => ⟨before, c, rest.head?⟩ :: contextsFrom (some c) rest

/-- The characters of a text with their neighbours. -/
def contexts (text : List Char) : List Context := contextsFrom none text

/-- Characters that mean something at the start of a plain text. -/
def leadingIndicators : List Char :=
  ['#', ',', '[', ']', '\x7b', '\x7d', '&', '*', '!', '|', '>', '\x27', '"', '%', '@', '\x60']

/-- Whether a character means something where it stands. -/
def Context.isIndicator (x : Context) : Bool :=
  let blankAfter := x.after.all isBlankOrBreak
  if x.before.isNone then
    leadingIndicators.contains x.char ||
      ((x.char == '?' || x.char == ':' || x.char == '-') && blankAfter)
  else
    (x.char == ':' && blankAfter) || (x.char == '#' && x.before.all isBlankOrBreak)

/-- Whether a text starts like a line that starts or ends a document. -/
def startsLikeMarker (text : List Char) : Bool :=
  ['-', '-', '-'].isPrefixOf text || ['.', '.', '.'].isPrefixOf text

/-- Whether a text has a character that has to be escaped. -/
def hasSpecial (text : List Char) : Bool := text.any fun c => !isPrintable c

/-- Whether a space stands right before the end of a line. -/
def spaceBeforeBreak (text : List Char) : Bool :=
  (contexts text).any fun x => x.char == ' ' && x.after.any isBreak

/-- Whether a space stands right after the end of a line. -/
def spaceAfterBreak (text : List Char) : Bool :=
  (contexts text).any fun x => x.char == ' ' && x.before.any isBreak

/-- Whether the first or the last character is a space. -/
def spaceAtEdge (text : List Char) : Bool :=
  text.head? == some ' ' || text.getLast? == some ' '

/-- Whether a text can stand as it is. -/
def plainAllowed (text : List Char) : Bool :=
  !(hasSpecial text || spaceAtEdge text || text.any isBreak || startsLikeMarker text ||
    (contexts text).any Context.isIndicator)

/-- Whether a text can stand in single quotes. -/
def singleAllowed (text : List Char) : Bool :=
  !(hasSpecial text || spaceBeforeBreak text || spaceAfterBreak text)

/-- Whether a text can stand in a block. -/
def blockAllowed (text : List Char) : Bool :=
  !(text.isEmpty || hasSpecial text || spaceBeforeBreak text || text.getLast? == some ' ')

/-- The style for a text. -/
def style (text : List Char) : Style :=
  if text.contains '\n' then if blockAllowed text then .block else .double
  else if !isAmbiguous text && plainAllowed text then .plain
  else if singleAllowed text then .single
  else .double

/-- Two spaces, by which the lines below a key are set in. -/
def indentation : List Char := [' ', ' ']

/-- The lines of a block, when a line has just ended or not. A line that holds something is set in, an
empty one is not. -/
def indentLines (afterBreak : Bool) : List Char → List Char
  | [] => []
  | c :: rest =>
    if isBreak c then c :: indentLines true rest
    else if afterBreak then indentation ++ c :: indentLines false rest
    else c :: indentLines false rest

/-- The marks at the head of a block: the width of the indentation, if the first line does not show it,
and what becomes of the line ends after the last line: none is there, one is taken for granted, or all
are kept. -/
def blockMarks (text : List Char) : List Char :=
  let hint := if text.head?.any fun c => c == ' ' || isBreak c then ['2'] else []
  let chomp :=
    match text.reverse with
    | [] => ['-']
    | [last] => if isBreak last then ['+'] else ['-']
    | last :: previous :: _ =>
      if !isBreak last then ['-'] else if isBreak previous then ['+'] else []
  hint ++ chomp

/-- A text in a block, up to the end of the line before the next key. -/
def block (text : List Char) : List Char :=
  let body := indentLines true text
  ['|'] ++ blockMarks text ++ ['\n'] ++ body ++
    (if text.getLast?.any isBreak then [] else ['\n'])

/-- The inside of a text in single quotes, when a line has just ended or not. Quotes are doubled. -/
def singleInside (afterBreak : Bool) : List Char → List Char
  | [] => if afterBreak then indentation else []
  | c :: rest =>
    if isBreak c then c :: singleInside true rest
    else
      (if afterBreak then indentation else []) ++
        (if c = '\x27' then [c, c] else [c]) ++ singleInside false rest

/-- A text in single quotes. -/
def single (text : List Char) : List Char := ['\x27'] ++ singleInside false text ++ ['\x27']

/-- A hexadecimal number in capital letters with a number of digits. -/
def hexWidth (width n : Nat) : List Char :=
  let digits := (Nat.toDigits 16 n).map Char.toUpper
  List.replicate (width - digits.length) '0' ++ digits

/-- The characters that have an escape of one letter. -/
def shortEscapes : List (Char × Char) :=
  [('\x00', '0'), ('\x07', 'a'), ('\x08', 'b'), ('\t', 't'), ('\n', 'n'), ('\x0b', 'v'),
   ('\x0c', 'f'), ('\r', 'r'), ('\x1b', 'e'), ('"', '"'), ('\\', '\\'), ('\u0085', 'N'),
   ('\u00a0', '_'), ('\u2028', 'L'), ('\u2029', 'P')]

/-- One character inside double quotes. -/
def escape (c : Char) : List Char :=
  if isPrintable c && !isBreak c && c != '"' && c != '\\' then [c]
  else
    match shortEscapes.lookup c with
    | some letter => ['\\', letter]
    | none =>
      if c.toNat ≤ 0xFF then ['\\', 'x'] ++ hexWidth 2 c.toNat
      else if c.toNat ≤ 0xFFFF then ['\\', 'u'] ++ hexWidth 4 c.toNat
      else ['\\', 'U'] ++ hexWidth 8 c.toNat

/-- A text in double quotes. -/
def double (text : List Char) : List Char := ['"'] ++ text.flatMap escape ++ ['"']

/-- A text as the value of a key, up to the end of its last line. -/
def scalar (text : List Char) : List Char :=
  match style text with
  | .plain => text ++ ['\n']
  | .single => single text ++ ['\n']
  | .double => double text ++ ['\n']
  | .block => block text

end Descent.Yaml
