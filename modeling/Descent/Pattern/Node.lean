import Descent.Text.CharSet
import Descent.Unicode.Category
import Descent.Unicode.Property

/-!
# Patterns

A pattern is a tree over sets of characters and conditions on places. Of two alternatives the first is
preferred; a greedy repetition rather goes on than stops, and a lazy one rather stops than goes on.
-/

namespace Descent.Pattern

/-- Letters, marks, decimal digits, connectors and joiners: what words are made of. -/
def wordChars : CharSet :=
  (Unicode.alphabetic.union Unicode.joinControl).union
    (Unicode.inCategories ["Mn", "Mc", "Me", "Nd", "Pc"])

/-- ASCII letters, digits and the underscore. -/
def asciiWordChars : CharSet := ⟨[⟨48, 57⟩, ⟨65, 90⟩, ⟨95, 95⟩, ⟨97, 122⟩]⟩

/-- A condition on a place between two characters. For the word conditions `ascii` tells whether only
ASCII characters count as parts of words. -/
inductive Look
  /-- Nothing stands before. -/
  | textStart
  /-- Nothing follows. -/
  | textEnd
  /-- At the start of a line; with `crlf` a carriage return ends a line, too. -/
  | lineStart (crlf : Bool)
  /-- At the end of a line. -/
  | lineEnd (crlf : Bool)
  /-- Exactly one of the neighbours belongs to a word. -/
  | wordBoundary (ascii : Bool)
  /-- Both neighbours belong to a word, or none. -/
  | notWordBoundary (ascii : Bool)
  /-- A word starts here. -/
  | wordStart (ascii : Bool)
  /-- A word ends here. -/
  | wordEnd (ascii : Bool)
  /-- No word reaches up to here. -/
  | wordStartHalf (ascii : Bool)
  /-- No word goes on from here. -/
  | wordEndHalf (ascii : Bool)
  deriving DecidableEq, Repr

/-- A place in the text that is searched. -/
structure Cursor where
  /-- The character before the place. -/
  before : Option Char
  /-- The characters after it. -/
  rest : List Char
  /-- How many characters stand before it. -/
  offset : Nat
  deriving DecidableEq, Inhabited, Repr

namespace Cursor

/-- The place before the whole text. -/
def start (chars : List Char) : Cursor := ⟨none, chars, 0⟩

/-- The place after the next character, if that belongs to the set. -/
def takeIn (s : CharSet) : Cursor → Option Cursor
  | ⟨_, [], _⟩ => none
  | ⟨_, c :: rest, offset⟩ => if s.contains c then some ⟨some c, rest, offset + 1⟩ else none

/-- Whether the character before the place, and the one after it, belong to a word. -/
def wordSides (ascii : Bool) (c : Cursor) : Bool × Bool :=
  let isWord := fun x => (if ascii then asciiWordChars else wordChars).contains x
  (c.before.any isWord, c.rest.head?.any isWord)

end Cursor

/-- Whether the condition holds at the place. -/
def Look.holds (look : Look) (c : Cursor) : Bool :=
  match look with
  | textStart => c.before.isNone
  | textEnd => c.rest.isEmpty
  | lineStart false => c.before.all (· == '\n')
  | lineStart true =>
    c.before.all fun b => b == '\n' || (b == '\r' && c.rest.head? != some '\n')
  | lineEnd false => c.rest.head?.all (· == '\n')
  | lineEnd true =>
    c.rest.head?.all fun n => n == '\r' || (n == '\n' && c.before != some '\r')
  | wordBoundary ascii => let (b, a) := c.wordSides ascii; b != a
  | notWordBoundary ascii => let (b, a) := c.wordSides ascii; b == a
  | wordStart ascii => let (b, a) := c.wordSides ascii; !b && a
  | wordEnd ascii => let (b, a) := c.wordSides ascii; b && !a
  | wordStartHalf ascii => !(c.wordSides ascii).1
  | wordEndHalf ascii => !(c.wordSides ascii).2

/-- A pattern. -/
inductive Node
  /-- Matches nothing but the empty text. -/
  | empty
  /-- One character of a set. -/
  | set (s : CharSet)
  /-- The empty text where a condition holds. -/
  | look (l : Look)
  /-- One pattern after another. -/
  | seq (a b : Node)
  /-- The first pattern, or else the second. -/
  | alt (a b : Node)
  /-- A pattern at least `least` and at most `most` times, as often as possible if `greedy`. -/
  | loop (least : Nat) (most : Option Nat) (greedy : Bool) (body : Node)
  deriving Inhabited, Repr

namespace Node

/-- Whether every match is empty. -/
def matchesOnlyEmpty : Node → Bool
  | empty => true
  | set _ => false
  | look _ => true
  | seq a b => a.matchesOnlyEmpty && b.matchesOnlyEmpty
  | alt a b => a.matchesOnlyEmpty && b.matchesOnlyEmpty
  | loop _ _ _ body => body.matchesOnlyEmpty

/-- A repetition, simplified: more than one repetition of the empty text is one, none at all is the
empty text, and exactly one is the body. -/
def repetition (least : Nat) (most : Option Nat) (greedy : Bool) (body : Node) : Node :=
  let onlyEmpty := body.matchesOnlyEmpty
  let least := if onlyEmpty then min least 1 else least
  let most := if onlyEmpty then some ((most.getD 1).min 1) else most
  if least = 0 ∧ most = some 0 then empty
  else if least = 1 ∧ most = some 1 then body
  else loop least most greedy body

/-- How many characters a match takes at least. -/
def minWidth : Node → Nat
  | empty => 0
  | set _ => 1
  | look _ => 0
  | seq a b => a.minWidth + b.minWidth
  | alt a b => min a.minWidth b.minWidth
  | loop least _ _ body => least * body.minWidth

end Node

end Descent.Pattern
