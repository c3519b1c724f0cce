import Descent.Pattern.Reader

/-!
# Engines

What can be asked for by name, how large a pattern may be and how it is searched for is up to an
engine. The pattern of a parser is put into a group after the start of the text, and handed to the
engine like this.
-/

namespace Descent.Pattern

/-- A search for a pattern: how many characters of the text stand before the match that it reports, and
before its end. -/
abbrev Search := List Char → Option (Nat × Nat)

/-- What searches for patterns. -/
structure Engine where
  /-- The sets that can be asked for by name. -/
  sets : Sets
  /-- The search for the pattern that a text writes, unless it is refused for its size. -/
  compile? : List Char → Node → Option Search

/-- Patterns that nest deeper are refused. -/
def maxDepth : Nat := 250

/-- The pattern that a text writes, and the search for it, if the engine takes it. -/
def Engine.read? (engine : Engine) (source : List Char) : Option (Node × Search) := do
  let whole ← Part.read? engine.sets source
  if whole.depth ≤ maxDepth then (engine.compile? source whole.node).map (whole.node, ·) else none

end Descent.Pattern

namespace Descent

/-- A pattern for the start of a text. -/
structure Pattern where
  /-- The text that writes it. -/
  source : String
  /-- The search for it, tied to the start. -/
  find : Pattern.Search
  deriving Inhabited

namespace Pattern

/-- What is put before a pattern to tie it to the start: the start of the text, then a group. -/
def anchorLead : List Char := ['\\', 'A', '(', '?', ':']

/-- The text of a pattern, tied to the start. -/
def anchored (source : List Char) : List Char := anchorLead ++ source ++ [')']

/-- The pattern that a text writes, tied to the start. -/
def ofSource? (engine : Engine) (source : String) : Option Pattern :=
  (engine.read? (anchored source.toList)).map fun (_, find) => ⟨source, find⟩

end Pattern

end Descent
