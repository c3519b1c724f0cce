import Descent.Store

/-!
# Building grammars

A grammar is a list of named rules and the name of the rule to start with. Each rule is declared with
a builder, which makes its body from a handle on the grammar's rules. No builder runs before all names
are known, so rules can refer to each other in any order, and a name that is declared twice or a
missing start rule stops the build before the first builder. Builders run in the order of declaration,
up to the first that asks for a name that no rule has.

Builders work on a site: the store and the log, and a value of the caller's own choice. With it a
builder can do anything else, such as build another grammar.
-/

namespace Descent

/-- What can be wrong with a grammar or a sequence. -/
inductive GrammarError
  /-- A builder asked for a name that no rule has. -/
  | unknownRule (name referencedBy : String)
  /-- No rule has the name of the start rule. -/
  | unknownStart (name : String)
  /-- Two rules have the same name. -/
  | duplicateRule (name : String)
  /-- A sequence of no parsers. -/
  | emptySequence
  /-- A text that writes no pattern. -/
  | invalidPattern (pattern : String)
  deriving DecidableEq, Inhabited, Repr

/-- The wording of the error. -/
def GrammarError.message : GrammarError → String
  | unknownRule name referencedBy =>
    "invalid rule: \x60" ++ name ++ "\x60 (referenced by \x60" ++ referencedBy ++ "\x60)"
  | unknownStart name => "start rule \x60" ++ name ++ "\x60 is not registered"
  | duplicateRule name => "rule \x60" ++ name ++ "\x60 is declared more than once"
  | emptySequence => "seq expects at least one parser and a combine function"
  | invalidPattern pattern => "invalid pattern \x60" ++ pattern ++ "\x60"

/-- Where grammars are built. -/
structure Site (σ : Type) where
  /-- All tables made so far. -/
  store : Store
  /-- What has happened so far. -/
  log : Log
  /-- The names that the running builder has asked for in vain, in order. -/
  missing : List String
  /-- The caller's own. -/
  own : σ

namespace Site

/-- A site on which nothing has happened. -/
def fresh (store : Store) (own : σ) : Site σ := ⟨store, [], [], own⟩

end Site

/-- Work on a site. -/
abbrev Build (σ : Type) := StateM (Site σ)

/-- The handle that a builder has on the rules of its grammar. -/
structure Rules where
  /-- The number of the grammar's table. -/
  table : Nat
  /-- The names of the rules, in order of declaration. -/
  names : List String
  /-- The rule whose builder is running. -/
  current : String
  deriving Inhabited

/-- A reference to the rule of the given name, to be looked up when it runs. A name that no rule has is
noted, and the parser for it fails. -/
def Rules.rule (r : Rules) (name : String) : Build σ Parser := fun site =>
  match r.names.idxOf? name with
  | some slot => (.reference name ⟨r.table, slot⟩, site)
  | none => (.unresolved name, { site with missing := site.missing ++ [name] })

/-- A rule as it is declared. -/
structure Declaration (σ : Type) where
  name : String
  /-- Makes the body of the rule. -/
  builder : Rules → Build σ Parser

namespace Grammar

/-- The first name in a list that also stands before. -/
def firstRepeated? (seen : List String) : List String → Option String
  | [] => none
  | name :: names =>
    if seen.contains name then some name else firstRepeated? (name :: seen) names

/-- Runs one builder. Its result is an error if it asks for a name that no rule has. What an outer
builder has asked for in vain is left as it was. -/
def buildRule (table : Nat) (names : List String) (d : Declaration σ) :
    Build σ (Except GrammarError Rule) := fun site =>
  let (body, after) := d.builder ⟨table, names, d.name⟩ { site with missing := [] }
  let site := { after with missing := site.missing }
  match after.missing with
  | [] => (.ok ⟨d.name, body⟩, site)
  | name :: _ => (.error (.unknownRule name d.name), site)

/-- Runs the builders in order, up to the first error. -/
def buildRules (table : Nat) (names : List String) :
    List (Declaration σ) → Build σ (Except GrammarError (List Rule))
  | [] => fun site => (.ok [], site)
  | d :: ds => fun site =>
    match buildRule table names d site with
    | (.error e, site) => (.error e, site)
    | (.ok rule, site) =>
      match buildRules table names ds site with
      | (.error e, site) => (.error e, site)
      | (.ok rules, site) => (.ok (rule :: rules), site)

/-- Builds a grammar, and returns the parser for its start rule, which bears the name of that rule. -/
def build (declarations : List (Declaration σ)) (start : String) :
    Build σ (Except GrammarError Parser) := fun site =>
  let names := declarations.map (·.name)
  match firstRepeated? [] names with
  | some name => (.error (.duplicateRule name), site)
  | none =>
    match names.idxOf? start with
    | none => (.error (.unknownStart start), site)
    | some slot =>
      let (table, store) := site.store.allocate
      match buildRules table names declarations { site with store := store } with
      | (.error e, site) =>
        (.error e, { site with store := site.store.put table .dropped })
      | (.ok rules, site) =>
        (.ok (.entry start ⟨table, slot⟩),
          { site with
            store := site.store.put table (.ready rules.toArray)
            log := site.log ++ [.grammarBuilt names.length start] })

end Grammar

/-- The text of a parser's choice between two is `a ||| b`. -/
instance : OrOp Parser := ⟨.orElse⟩

/-- One parser after another is `a >>> b`. -/
instance : ShiftRight Parser := ⟨.andThen⟩

end Descent
