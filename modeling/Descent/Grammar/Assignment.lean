import Descent.Grammar.Build

/-!
# Assignments

Two grammars for a name, an equals sign and a digit: one wants exactly one space on either side of the
sign, the other takes any blanks there, or none.
-/

namespace Descent.Assignment

/-- The rules with one space on either side. -/
def strictDeclarations : List (Declaration σ) :=
  [⟨"assign", fun _ => return .many1 .anyLetter >>> .literal " = ".toList >>> .anyNumber⟩]

/-- The rules with blanks as one likes. -/
def declarations : List (Declaration σ) :=
  [⟨"equals", fun _ =>
     return .thenOptional (.optionalThen .whitespace (.one '=')) .whitespace⟩,
   ⟨"assign", fun r => return .many1 .anyLetter >>> (← r.rule "equals") >>> .anyNumber⟩]

/-- Builds the grammar with one space on either side. -/
def strict : Build σ (Except GrammarError Parser) := Grammar.build strictDeclarations "assign"

/-- Builds the grammar with blanks as one likes. -/
def grammar : Build σ (Except GrammarError Parser) := Grammar.build declarations "assign"

end Descent.Assignment
