import Descent.Datum
import Descent.Grammar.Assignment
import Descent.Grammar.Json

/-!
# Built-in grammars

The grammars that a user can ask for by name.
-/

namespace Descent

/-- A grammar with a name. -/
inductive Builtin
  | json | assignment
  deriving DecidableEq, Inhabited, Repr

namespace Builtin

/-- All of them, in the order in which they are listed. -/
def all : List Builtin := [json, assignment]

/-- The name, which is also the form in which a document holds it. -/
def name : Builtin → String
  | json => "json"
  | assignment => "assignment"

/-- The name as it is shown to programmers. -/
def label : Builtin → String
  | json => "Json"
  | assignment => "Assignment"

/-- What the grammar is for. -/
def description : Builtin → String
  | json => "A complete JSON document"
  | assignment => "A \x60name = digit\x60 assignment, spacing around \x60=\x60 optional"

/-- Builds the grammar. -/
def build : Builtin → Build σ (Except GrammarError Parser)
  | json => Json.grammar
  | assignment => Assignment.grammar

/-- The parser of the grammar, and the store that holds its rules. -/
def parser (b : Builtin) : Except GrammarError (Parser × Store) :=
  let (result, site) := b.build (Site.fresh .empty ())
  result.map fun p => (p, site.store)

/-- The grammar of the given name. -/
def ofName? (name : String) : Option Builtin := all.find? (·.name = name)

/-- The wording for a name that no grammar has. -/
def unknownMessage (name : String) : String :=
  "unknown grammar \x60" ++ name ++ "\x60 (available: " ++ ", ".intercalate (all.map Builtin.name) ++ ")"

/-- The grammar that a value of a document names: by its name alone, or by its name as the only key of a
table, with nothing under it. The error is in words. -/
def ofDatum (d : Datum) : Except String Builtin :=
  let variant := fun (name : String) =>
    match ofName? name with
    | some b => Except.ok b
    | none => .error ("unknown variant \x60" ++ name ++ "\x60, expected " ++
        " or ".intercalate (all.map fun b => "\x60" ++ b.name ++ "\x60"))
  match d with
  | .scalar (.text name) => variant name
  | .table [(name, content)] => do
    let b ← variant name
    match content with
    | .scalar .null => return b
    | content => .error ("invalid type: " ++ content.kind "null" ++ ", expected unit")
  | .table _ => .error "invalid value: map, expected map with a single key"
  | d => .error ("invalid type: " ++ d.kind "null" ++ ", expected string or map")

end Builtin

end Descent
