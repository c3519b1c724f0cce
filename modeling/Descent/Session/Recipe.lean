import Descent.Grammar.Assignment
import Descent.Grammar.Json
import Descent.Pattern.Machine
import Descent.Session.Slots

/-!
# Recipes

A recipe tells how a caller makes a parser: from primitives and combinators, from grammars built on
the spot, and from parsers put aside in slots. Recipes for the rules of a grammar may refer to its
rules, and may put such a reference aside, from where it can be used after the build.
-/

namespace Descent

/-- A grammar that comes with the library. -/
inductive Ready
  | json | assignment | strict
  deriving DecidableEq, Repr

/-- How to make a parser. -/
inductive Recipe
  | eof
  | empty
  | whitespace
  | anyLetter
  | anyNumber
  | one (c : Char)
  | literal (text : List Char)
  /-- The pattern that a text writes. -/
  | pattern (source : String)
  | anyChar (chars : List Char)
  | anyCharBut (chars : List Char)
  | many0 (body : Recipe)
  | many1 (body : Recipe)
  | exactly (count : Nat) (body : Recipe)
  | between (inner opening closing : Recipe)
  | orElse (a b : Recipe)
  | andThen (a b : Recipe)
  | thenOptional (a b : Recipe)
  | optionalThen (a b : Recipe)
  | thenIgnore (a b : Recipe)
  | ignoreThen (a b : Recipe)
  | named (name : String) (body : Recipe)
  | handmade (name : String) (run : Text → Outcome)
  /-- A grammar of the library. -/
  | ready (grammar : Ready)
  /-- A grammar built on the spot, from rules in order of declaration. -/
  | grammar (rules : List (String × Recipe)) (start : String)
  /-- A reference to a rule of the grammar around. -/
  | rule (name : String)
  /-- The name of the rule around, as a literal. -/
  | current
  /-- A reference to a rule of the grammar around, which is put aside in a slot as well. -/
  | escape (slot name : String)
  /-- The parser in a slot. -/
  | slot (name : String)

/-- Why a recipe does not work out. -/
inductive Fault
  /-- The grammar, sequence or pattern is wrong. -/
  | grammar (e : GrammarError)
  /-- Nothing is in the slot. -/
  | emptySlot (name : String)
  deriving DecidableEq, Inhabited, Repr

/-- What recipes use and leave behind. -/
structure Desk where
  /-- The parsers put aside. -/
  slots : Slots Parser
  /-- The first fault of a rule of the grammar that is being built. -/
  fault : Option Fault

/-- Work that can fail for a fault. -/
abbrev Prepare := ExceptT Fault (Build Desk)

namespace Prepare

/-- A build as work that can fail. -/
def ofBuild (build : Build Desk (Except GrammarError Parser)) : Prepare Parser := fun site =>
  match build site with
  | (.ok p, site) => (.ok p, site)
  | (.error e, site) => (.error (.grammar e), site)

/-- The parser in a slot. -/
def slot (name : String) : Prepare Parser := fun site =>
  match site.own.slots.get? name with
  | some p => (.ok p, site)
  | none => (.error (.emptySlot name), site)

/-- Puts a parser aside. -/
def putAside (name : String) (p : Parser) : Prepare Unit := fun site =>
  (.ok (), { site with own := { site.own with slots := site.own.slots.put name p } })

/-- Work on a rule, as its builder: after a fault, of which the first is kept, the rule matches the
empty text. -/
def asBuilder (work : Rules → Prepare Parser) : Rules → Build Desk Parser := fun rules site =>
  match work rules site with
  | (.ok p, site) => (p, site)
  | (.error fault, site) =>
    (.empty, { site with own := { site.own with fault := site.own.fault.or (some fault) } })

/-- Builds a grammar from rules whose builders can meet faults. A fault of the grammar itself goes
before those of its rules. -/
def grammar (declarations : List (Declaration Desk)) (start : String) : Prepare Parser :=
  fun site =>
    let outer := site.own.fault
    let (result, site) :=
      Grammar.build declarations start { site with own := { site.own with fault := none } }
    let inner := site.own.fault
    let site := { site with own := { site.own with fault := outer } }
    match result, inner with
    | .error e, _ => (.error (.grammar e), site)
    | .ok _, some fault => (.error fault, site)
    | .ok p, none => (.ok p, site)

end Prepare

/-- Builds a grammar of the library. -/
def Ready.build : Ready → Build σ (Except GrammarError Parser)
  | json => Json.grammar
  | assignment => Assignment.grammar
  | strict => Assignment.strict

namespace Recipe

mutual

/-- Makes the parser, from left to right, up to the first fault. -/
def prepare (rules : Rules) : Recipe → Prepare Parser
  | eof => return .eof
  | empty => return .empty
  | whitespace => return .whitespace
  | anyLetter => return .anyLetter
  | anyNumber => return .anyNumber
  | one c => return .one c
  | literal text => return .literal text
  | pattern source =>
    match Pattern.ofSource? .machine source with
    | some p => return .pattern p
    | none => throw (.grammar (.invalidPattern source))
  | anyChar chars => return .anyChar chars
  | anyCharBut chars => return .anyCharBut chars
  | many0 body => return .many0 (← body.prepare rules)
  | many1 body => return .many1 (← body.prepare rules)
  | exactly count body => return .exactly count (← body.prepare rules)
  | between inner opening closing =>
    return .between (← inner.prepare rules) (← opening.prepare rules) (← closing.prepare rules)
  | orElse a b => return .orElse (← a.prepare rules) (← b.prepare rules)
  | andThen a b => return .andThen (← a.prepare rules) (← b.prepare rules)
  | thenOptional a b => return .thenOptional (← a.prepare rules) (← b.prepare rules)
  | optionalThen a b => return .optionalThen (← a.prepare rules) (← b.prepare rules)
  | thenIgnore a b => return .thenIgnore (← a.prepare rules) (← b.prepare rules)
  | ignoreThen a b => return .ignoreThen (← a.prepare rules) (← b.prepare rules)
  | named name body => return .named name (← body.prepare rules)
  | handmade name run => return .handmade name run
  | ready g => Prepare.ofBuild g.build
  | grammar declared start => Prepare.grammar (declarations declared) start
  | rule name => ExceptT.lift (rules.rule name)
  | current => return .literal rules.current.toList
  | escape into name => do
    let p ← ExceptT.lift (rules.rule name)
    Prepare.putAside into p
    return p
  | slot name => Prepare.slot name

/-- The declarations for the rules of a grammar. -/
def declarations : List (String × Recipe) → List (Declaration Desk)
  | [] => []
  | (name, recipe) :: rest =>
    ⟨name, Prepare.asBuilder fun rules => recipe.prepare rules⟩ :: declarations rest

end

end Recipe

end Descent
