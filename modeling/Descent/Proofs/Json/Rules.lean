import Descent.Grammar.Json
import Descent.Proofs.Conservation
import Descent.Proofs.Tables
import Descent.Proofs.Taking
import Mathlib.Data.List.Forall2

/-!
# The rules of the JSON grammar in their table

A grammar whose builders do nothing but ask for rules is built without an error, wherever it is
built. So is the grammar of JSON, and here are its rules by name, as they stand in their table then
(`grammar_eq`). They drop nothing, every rule takes something, and those that a rule may call first
are in lower layers; so all runs of them end.
-/

namespace Descent

/-- A choice is written with a bar. -/
theorem Parser.or_eq (a b : Parser) : a ||| b = .orElse a b := rfl

/-- A sequence is written with an arrow. -/
theorem Parser.shiftRight_eq (a b : Parser) : a >>> b = .andThen a b := rfl

/-- Builders that only ask for rules that are there build the rules and leave the site as it was. -/
theorem Grammar.buildRules_eq {σ : Type} {table : Nat} {names : List String}
    {declarations : List (Declaration σ)} {rules : List Rule}
    (h : List.Forall₂ (fun d rule => d.name = rule.name ∧
      ∀ site, d.builder ⟨table, names, d.name⟩ site = (rule.body, site)) declarations rules)
    (site : Site σ) : buildRules table names declarations site = (.ok rules, site) := by
  induction h with
  | nil => rfl
  | @cons d rule ds rules hd _ ih =>
    obtain ⟨hname, hbody⟩ := hd
    have hrule : buildRule table names d site = (.ok rule, site) := by
      unfold buildRule
      rw [hbody, hname]
    simp [buildRules, hrule, ih]

/-- A grammar of such builders is built, if no name is repeated and the start rule is there. It adds
the table of its rules to the store. -/
theorem Grammar.build_eq {σ : Type} {declarations : List (Declaration σ)} {start : String}
    {slot : Nat} (site : Site σ) {rules : List Rule}
    (hrepeated : firstRepeated? [] (declarations.map (·.name)) = none)
    (hstart : (declarations.map (·.name)).idxOf? start = some slot)
    (h : List.Forall₂ (fun d rule => d.name = rule.name ∧ ∀ site',
      d.builder ⟨site.store.tables.size, declarations.map (·.name), d.name⟩ site' =
        (rule.body, site')) declarations rules) :
    build declarations start site = (.ok (.entry start ⟨site.store.tables.size, slot⟩),
      { site with
        store := ⟨site.store.tables.push (.ready rules.toArray)⟩
        log := site.log ++ [.grammarBuilt (declarations.map (·.name)).length start] }) := by
  have htable : site.store.allocate.1 = site.store.tables.size := rfl
  have hrules := buildRules_eq h { site with store := site.store.allocate.2 }
  simp only [build, hrepeated, hstart, htable, hrules, Store.put_allocate]

namespace Json

/-! ## The table -/

/-- The rules of the grammar. -/
inductive RuleName
  | ws | bopen | bclose | sopen | sclose | colon | comma | quote
  | trueText | falseText | nullText
  | hexdigit | unicode | escaped | unescaped | stringChar | string
  | digits | integer | fraction | exponent | number
  | elements | array | pair | members | object | value | document
  deriving DecidableEq

namespace RuleName

/-- All rules, in order of declaration. -/
def all : List RuleName :=
  [ws, bopen, bclose, sopen, sclose, colon, comma, quote, trueText, falseText, nullText,
    hexdigit, unicode, escaped, unescaped, stringChar, string, digits, integer, fraction, exponent,
    number, elements, array, pair, members, object, value, document]

/-- The place of declaration. -/
def slot (n : RuleName) : Nat := n.ctorIdx

/-- The name that is given in the declaration. -/
def text : RuleName → String
  | ws => "ws"
  | bopen => "bopen"
  | bclose => "bclose"
  | sopen => "sopen"
  | sclose => "sclose"
  | colon => "colon"
  | comma => "comma"
  | quote => "quote"
  | trueText => "true"
  | falseText => "false"
  | nullText => "null"
  | hexdigit => "hexdigit"
  | unicode => "unicode"
  | escaped => "escaped"
  | unescaped => "unescaped"
  | stringChar => "string_char"
  | string => "string"
  | digits => "digits"
  | integer => "integer"
  | fraction => "fraction"
  | exponent => "exponent"
  | number => "number"
  | elements => "elements"
  | array => "array"
  | pair => "pair"
  | members => "members"
  | object => "object"
  | value => "value"
  | document => "document"

/-- The body of the rule, given the parsers for rules. -/
def body (ref : RuleName → Parser) : RuleName → Parser
  | ws => .many1 (.anyChar [' ', '\t', '\n', '\r'])
  | bopen => .thenOptional (.one '\x7b') (ref ws)
  | bclose => .optionalThen (ref ws) (.one '\x7d')
  | sopen => .thenOptional (.one '[') (ref ws)
  | sclose => .optionalThen (ref ws) (.one ']')
  | colon => .thenOptional (.optionalThen (ref ws) (.one ':')) (ref ws)
  | comma => .thenOptional (.optionalThen (ref ws) (.one ',')) (ref ws)
  | quote => .one '"'
  | trueText => .literal "true".toList
  | falseText => .literal "false".toList
  | nullText => .literal "null".toList
  | hexdigit => .anyChar hexDigits
  | unicode => .one 'u' >>> .exactly 4 (ref hexdigit)
  | escaped => .one '\\' >>> (.anyChar escapes ||| ref unicode)
  | unescaped => .anyCharBut unescapable
  | stringChar => ref unescaped ||| ref escaped
  | string => .between (.many0 (ref stringChar)) (ref quote) (ref quote)
  | digits => .many1 .anyNumber
  | integer => .one '0' ||| ref digits
  | fraction => .one '.' >>> ref digits
  | exponent => .anyChar ['e', 'E'] >>> .optionalThen (.anyChar ['+', '-']) (ref digits)
  | number =>
    .optionalThen (.one '-')
      (.thenOptional (.thenOptional (ref integer) (ref fraction)) (ref exponent))
  | elements => ref value >>> .many0 (ref comma >>> ref value)
  | array => .between (ref elements ||| .empty) (ref sopen) (ref sclose)
  | pair => ref string >>> ref colon >>> ref value
  | members => ref pair >>> .many0 (ref comma >>> ref pair)
  | object => .between (ref members ||| .empty) (ref bopen) (ref bclose)
  | value =>
    ref string ||| ref number ||| ref object ||| ref array ||| ref trueText ||| ref falseText |||
      ref nullText
  | document =>
    .guarded tooDeep (.thenOptional (.optionalThen (ref ws) (ref value)) (ref ws) >>> .eof)

end RuleName

/-- The parser for a rule. -/
def ref (table : Nat) (n : RuleName) : Parser := .reference n.text ⟨table, n.slot⟩

/-- The rules as they stand in their table. -/
def rules (table : Nat) : Array Rule :=
  (RuleName.all.map fun n => ⟨n.text, n.body (ref table)⟩).toArray

/-- The builders of the declared rules make the bodies of these rules. -/
theorem declarations_rules (σ : Type) (table : Nat) :
    List.Forall₂ (fun (d : Declaration σ) rule => d.name = rule.name ∧
        ∀ site, d.builder ⟨table, RuleName.all.map RuleName.text, d.name⟩ site = (rule.body, site))
      declarations (rules table).toList := by
  repeat refine .cons ⟨rfl, fun _ => rfl⟩ ?_
  exact .nil

/-- Building the grammar always succeeds, and adds the table of its rules to the store. -/
theorem grammar_eq {σ : Type} (site : Site σ) :
    grammar site = (.ok (.entry "document" ⟨site.store.tables.size, RuleName.document.slot⟩),
      { site with
        store := ⟨site.store.tables.push (.ready (rules site.store.tables.size))⟩
        log := site.log ++ [.grammarBuilt 29 "document"] }) := by
  have hrepeated : Grammar.firstRepeated? [] (RuleName.all.map RuleName.text) = none := by decide
  have hstart : (RuleName.all.map RuleName.text).idxOf? "document" =
      some RuleName.document.slot := by decide
  exact Grammar.build_eq site hrepeated hstart (declarations_rules σ site.store.tables.size)

/-- The rule that stands at its place. -/
theorem getElem?_rules (table : Nat) (n : RuleName) :
    (rules table)[n.slot]? = some ⟨n.text, n.body (ref table)⟩ := by
  cases n <;> rfl

/-- The table has no other rules. -/
theorem exists_of_getElem?_rules {table slot : Nat} {rule : Rule}
    (h : (rules table)[slot]? = some rule) :
    ∃ n : RuleName, n.slot = slot ∧ rule = ⟨n.text, n.body (ref table)⟩ := by
  have hslots : ∀ i (hi : i < RuleName.all.length), (RuleName.all[i]).slot = i := by decide
  simp only [rules, List.getElem?_toArray, List.getElem?_map, Option.map_eq_some_iff] at h
  obtain ⟨n, hn, rfl⟩ := h
  obtain ⟨hslot, rfl⟩ := List.getElem?_eq_some_iff.1 hn
  exact ⟨_, hslots slot hslot, rfl⟩

/-! ## What holds of all rules -/

/-- What a parser for JSON must be: it drops nothing, holds no function written by hand, and calls
only rules of the grammar. -/
def Plain (table : Nat) (p : Parser) : Prop := p.Honest ∧ p.Conserving ∧ p.CallsInto table

/-- The parser for a rule is plain. -/
theorem all_ref (table : Nat) (n : RuleName) : (ref table n).All (Plain table) := by
  simp [ref, Parser.All, Plain, Parser.Honest, Parser.Conserving, Parser.CallsInto, Parser.target?]

/-- The bodies of the rules are put together from plain parsers. -/
theorem all_body (table : Nat) (n : RuleName) : (n.body (ref table)).All (Plain table) := by
  cases n <;> simp [RuleName.body, Parser.or_eq, Parser.shiftRight_eq, ref, Parser.All, Plain,
    Parser.Honest, Parser.Conserving, Parser.CallsInto, Parser.target?]

/-- Every rule takes something when it succeeds. -/
theorem takes_body (table : Nat) (n : RuleName) : (n.body (ref table)).takes = true := by
  cases n <;> rfl

/-- How many rules a rule may call one after the other before it has taken anything. -/
def RuleName.layer : RuleName → Nat
  | document => 5
  | elements => 4
  | value | members => 3
  | number | pair => 2
  | bclose | sclose | colon | comma | stringChar | string | integer | array | object => 1
  | _ => 0

/-- The layer of the rule at a place. -/
def layerAt (slot : Nat) : Nat := (RuleName.all[slot]?.map RuleName.layer).getD 0

/-- What a rule may call first is in a lower layer. -/
theorem layerAt_lt (table : Nat) (n : RuleName) :
    ∀ id ∈ (n.body (ref table)).heads, layerAt id.slot < layerAt n.slot := by
  cases n <;> simp [RuleName.body, Parser.or_eq, Parser.shiftRight_eq, ref, Parser.heads,
    Parser.takes, layerAt] <;> decide

/-- What holds of the bodies of the rules holds of the rules in the table. -/
theorem forall_rules {table : Nat} (good : Parser → Prop)
    (h : ∀ n : RuleName, good (n.body (ref table))) :
    ∀ rule ∈ (rules table).toList, good rule.body := by
  intro rule hrule
  obtain ⟨n, _, rfl⟩ := List.mem_map.1 hrule
  exact h n

variable {s : Store} {table : Nat}

/-- A rule can be looked up where its table is ready. -/
theorem rule?_slot (htable : s.table table = .ready (rules table)) (n : RuleName) :
    s.rule? ⟨table, n.slot⟩ = some ⟨n.text, n.body (ref table)⟩ := by
  simpa only [Store.rule?, htable] using getElem?_rules table n

/-- The rules stand in six layers. -/
theorem layered (htable : s.table table = .ready (rules table)) :
    s.Layered table (rules table) layerAt 6 := by
  have htakes := forall_rules (fun body => body.takes = true) (takes_body table)
  have hinside := forall_rules (Parser.All (Store.Inside table)) fun n =>
    (all_body table n).imp fun q hq => ⟨hq.1.shrinking, hq.2.2⟩
  refine .of_takes htable hinside htakes ?_ ?_
  · intro slot rule hrule
    obtain ⟨n, rfl, rfl⟩ := exists_of_getElem?_rules hrule
    exact layerAt_lt table n
  · intro slot
    unfold layerAt
    cases RuleName.all[slot]? with
    | none => decide
    | some n => cases n <;> decide

/-- A parser that is put together from plain parsers is plain everywhere. -/
theorem everywhere_plain (htable : s.table table = .ready (rules table)) {p : Parser}
    (hp : p.All (Plain table)) : s.Everywhere (Plain table) p :=
  .of_closed_table htable (fun _ hq => hq.2.2) hp (forall_rules _ (all_body table))

/-- The store after the grammar has been built. -/
def builtStore (s : Store) : Store := ⟨s.tables.push (.ready (rules s.tables.size))⟩

/-- The entry of the grammar, built in this store. -/
def entryIn (s : Store) : Parser := .entry "document" ⟨s.tables.size, RuleName.document.slot⟩

/-- The rules are there once the grammar has been built. -/
theorem table_builtStore (s : Store) :
    (builtStore s).table s.tables.size = .ready (rules s.tables.size) := by
  simp [builtStore, Store.table]

/-- Every run of the entry ends, and does what the rule for documents does. -/
theorem exists_run_entryIn (s : Store) (t : Text) : ∃ r, (builtStore s).run (entryIn s) t = some r ∧
    (builtStore s).Runs (ref s.tables.size .document) t r := by
  have hinside : (ref s.tables.size .document).All (Store.Inside s.tables.size) :=
    (all_ref s.tables.size .document).imp fun q hq => ⟨hq.1.shrinking, hq.2.2⟩
  obtain ⟨r, hr⟩ := Option.isSome_iff_exists.1
    ((layered (table_builtStore s)).run_isSome hinside (by omega) t)
  have hentry : (builtStore s).run (entryIn s) t =
      (builtStore s).run (ref s.tables.size .document) t :=
    (Store.step_of_target rfl).trans (Store.step_of_target rfl).symm
  exact ⟨r, hentry.trans hr, .of_step hr⟩

end Json

end Descent
