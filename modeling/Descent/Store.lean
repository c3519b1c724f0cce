import Descent.Parser.Basic

/-!
# Rule tables and who keeps them

The rules of a grammar stand in a table, and the tables stand in a store under their numbers. A table
is there as long as somebody keeps it: a parser that holds the entry of its grammar, at hand or inside
a rule of a table that is kept. References to rules keep nothing.
-/

namespace Descent

/-- A rule of a grammar. -/
structure Rule where
  name : String
  body : Parser
  deriving Inhabited

/-- The state of a rule table. -/
inductive Table
  /-- The grammar is being built, and has no rules yet. -/
  | forming
  /-- The rules, in order of declaration. -/
  | ready (rules : Array Rule)
  /-- Nobody keeps the table any more, or its grammar was not built. -/
  | dropped
  deriving Inhabited

/-- All tables ever made, under their numbers. -/
structure Store where
  tables : Array Table
  deriving Inhabited

namespace Store

/-- The store without tables. -/
def empty : Store := ⟨#[]⟩

/-- The table under a number. -/
def table (s : Store) (id : Nat) : Table := s.tables[id]?.getD .dropped

/-- Starts a table, and returns its number. -/
def allocate (s : Store) : Nat × Store := (s.tables.size, ⟨s.tables.push .forming⟩)

/-- Changes the state of a table. -/
def put (s : Store) (id : Nat) (table : Table) : Store := ⟨s.tables.setIfInBounds id table⟩

/-- How many rules a table holds. -/
def tableCount : Table → Nat
  | .ready rules => rules.size
  | _ => 0

/-- How many rules the tables hold. -/
def ruleCount (s : Store) : Nat :=
  s.tables.toList.foldr (fun table count => tableCount table + count) 0

/-- The tables that the rules of a table keep. -/
def keptBy (s : Store) (id : Nat) : List Nat :=
  match s.table id with
  | .ready rules => rules.toList.flatMap fun rule => rule.body.kept
  | _ => []

/-- The tables that are kept by those given, or by tables that are, in at most `rounds` steps. -/
def reach (s : Store) : Nat → List Nat → List Nat
  | 0, ids => ids
  | rounds + 1, ids =>
    let more := (ids.flatMap s.keptBy).filter fun id => !ids.contains id
    if more.isEmpty then ids else s.reach rounds (ids ++ more.eraseDups)

/-- Drops every table that nobody keeps, when the given parsers are all that is at hand. No table is
more steps away than there are tables. -/
def collect (s : Store) (parsers : List Parser) : Store :=
  let kept := s.reach s.tables.size (parsers.flatMap Parser.kept).eraseDups
  ⟨s.tables.mapIdx fun id table => if kept.contains id then table else .dropped⟩

end Store

end Descent
