import Descent.Proofs.Runs

/-!
# What a parser is made of

The parts of a parser are those it was put together from and, wherever it calls a rule that is
there, the parts of the rule. A property of parsers holds everywhere in a parser if all its parts
have it.
-/

namespace Descent

namespace Parser

/-- The parsers that a parser was put together from. -/
def children : Parser → List Parser
  | many0 body => [body]
  | many1 body => [body]
  | exactly _ body => [body]
  | between inner opening closing => [inner, opening, closing]
  | orElse a b => [a, b]
  | andThen a b => [a, b]
  | thenOptional a b => [a, b]
  | optionalThen a b => [a, b]
  | thenIgnore a b => [a, b]
  | ignoreThen a b => [a, b]
  | named _ body => [body]
  | guarded _ body => [body]
  | _ => []

/-- A parser that does what a function says has no parts. -/
theorem children_of_direct {p : Parser} {f : Text → Outcome} (hp : p.direct? = some f) :
    p.children = [] := by
  cases p <;> first | rfl | cases hp

/-- A parser that does what a function says calls no rule. -/
theorem target?_of_direct {p : Parser} {f : Text → Outcome} (hp : p.direct? = some f) :
    p.target? = none := by
  cases p <;> first | rfl | cases hp

/-- A parser that calls a rule has no parts. -/
theorem children_of_target {p : Parser} {id : RuleId} (hp : p.target? = some id) :
    p.children = [] := by
  cases p <;> first | rfl | cases hp

/-- A parser and the parsers it was put together from, down to those without parts, have a property.
Rules that are called do not count. -/
def All (good : Parser → Prop) : Parser → Prop
  | many0 body => good (many0 body) ∧ body.All good
  | many1 body => good (many1 body) ∧ body.All good
  | exactly count body => good (exactly count body) ∧ body.All good
  | between inner opening closing =>
    good (between inner opening closing) ∧ inner.All good ∧ opening.All good ∧ closing.All good
  | orElse a b => good (orElse a b) ∧ a.All good ∧ b.All good
  | andThen a b => good (andThen a b) ∧ a.All good ∧ b.All good
  | thenOptional a b => good (thenOptional a b) ∧ a.All good ∧ b.All good
  | optionalThen a b => good (optionalThen a b) ∧ a.All good ∧ b.All good
  | thenIgnore a b => good (thenIgnore a b) ∧ a.All good ∧ b.All good
  | ignoreThen a b => good (ignoreThen a b) ∧ a.All good ∧ b.All good
  | named name body => good (named name body) ∧ body.All good
  | guarded objection body => good (guarded objection body) ∧ body.All good
  | p => good p

/-- The parser itself is among those that have the property. -/
theorem All.self {good : Parser → Prop} {p : Parser} (h : p.All good) : good p := by
  cases p with
  | eof | empty | whitespace | anyLetter | anyNumber | one | literal | pattern => exact h
  | anyChar | anyCharBut | handmade | reference | unresolved | entry => exact h
  | _ => exact h.1

/-- A property of a parser and all below it is one of its children and all below them. -/
theorem All.child {good : Parser → Prop} {p c : Parser} (h : p.All good) (hc : c ∈ p.children) :
    c.All good := by
  cases p with
  | many0 body | many1 body | exactly count body | named name body | guarded objection body =>
    obtain rfl := List.mem_singleton.1 hc
    exact h.2
  | between inner opening closing =>
    simp only [children, List.mem_cons, List.not_mem_nil, or_false] at hc
    rcases hc with rfl | rfl | rfl
    · exact h.2.1
    · exact h.2.2.1
    · exact h.2.2.2
  | orElse a b | andThen a b | thenOptional a b | optionalThen a b | thenIgnore a b
  | ignoreThen a b =>
    simp only [children, List.mem_cons, List.not_mem_nil, or_false] at hc
    rcases hc with rfl | rfl
    · exact h.2.1
    · exact h.2.2
  | _ => cases hc

/-- A weaker property holds wherever a stronger one does. -/
theorem All.imp {good good' : Parser → Prop} (himp : ∀ q, good q → good' q) {p : Parser}
    (h : p.All good) : p.All good' := by
  induction p with
  | many0 body ih | many1 body ih | exactly count body ih | named name body ih
  | guarded objection body ih => exact ⟨himp _ h.1, ih h.2⟩
  | between inner opening closing ihInner ihOpening ihClosing =>
    exact ⟨himp _ h.1, ihInner h.2.1, ihOpening h.2.2.1, ihClosing h.2.2.2⟩
  | orElse a b iha ihb | andThen a b iha ihb | thenOptional a b iha ihb
  | optionalThen a b iha ihb | thenIgnore a b iha ihb | ignoreThen a b iha ihb =>
    exact ⟨himp _ h.1, iha h.2.1, ihb h.2.2⟩
  | _ => exact himp _ h

/-- Every rule that the parser calls by itself is in the given table. -/
def CallsInto (table : Nat) (p : Parser) : Prop := ∀ id, p.target? = some id → id.table = table

/-- A property that no parser loses by being written in a simpler form: sequences, choices, counts
and the empty text have it. -/
structure Neutral (good : Parser → Prop) : Prop where
  andThen : ∀ a b, good (.andThen a b)
  orElse : ∀ a b, good (.orElse a b)
  exactly : ∀ count body, good (.exactly count body)
  empty : good .empty

/-- Both parts of a sequence have what all its parts have. -/
theorem All.joins {good : Parser → Prop} {keep : List Char → List Char → List Char} {a b p : Parser}
    (h : p.All good) (hp : Joins keep a b p) : a.All good ∧ b.All good := by
  cases hp <;> exact h.2

/-- What passes from a parser to its children, and from parsers to sequences, choices and counts of
them, passes from a parser to its simpler form. -/
theorem of_expand {inherited : Parser → Prop} {p q : Parser} (hp : inherited p)
    (hexpand : p.expand? = some q) (hchild : ∀ p c, inherited p → c ∈ p.children → inherited c)
    (handThen : ∀ a b, inherited a → inherited b → inherited (.andThen a b))
    (horElse : ∀ a b, inherited a → inherited b → inherited (.orElse a b))
    (hexactly : ∀ count body, inherited body → inherited (.exactly count body))
    (hempty : inherited .empty) : inherited q := by
  have hpart (c : Parser) (hc : c ∈ p.children) : inherited c := hchild p c hp hc
  cases p with
  | exactly count body =>
    have hbody := hpart body (by simp [children])
    cases count with
    | zero =>
      cases Option.some.inj hexpand
      exact hempty
    | succ count =>
      cases Option.some.inj hexpand
      exact handThen _ _ hbody (hexactly _ _ hbody)
  | between inner opening closing =>
    cases Option.some.inj hexpand
    have hinner := hpart inner (by simp [children])
    have hopening := hpart opening (by simp [children])
    have hclosing := hpart closing (by simp [children])
    exact handThen _ _ (handThen _ _ hopening hinner) hclosing
  | thenOptional a b =>
    cases Option.some.inj hexpand
    have ha := hpart a (by simp [children])
    have hb := hpart b (by simp [children])
    exact handThen _ _ ha (horElse _ _ hb hempty)
  | optionalThen a b =>
    cases Option.some.inj hexpand
    have ha := hpart a (by simp [children])
    have hb := hpart b (by simp [children])
    exact handThen _ _ (horElse _ _ ha hempty) hb
  | named name body =>
    cases Option.some.inj hexpand
    exact hpart q (by simp [children])
  | _ => cases hexpand

/-- The simpler form of a parser is put together from parsers with a neutral property, if the parser
is. -/
theorem All.expand {good : Parser → Prop} {p q : Parser} (hgood : Neutral good) (h : p.All good)
    (hp : p.expand? = some q) : q.All good :=
  of_expand h hp (fun _ _ h => h.child) (fun a b ha hb => ⟨hgood.andThen a b, ha, hb⟩)
    (fun a b ha hb => ⟨hgood.orElse a b, ha, hb⟩)
    (fun count body hbody => ⟨hgood.exactly count body, hbody⟩) hgood.empty

end Parser

namespace Store

/-- One parser is a part of another. -/
inductive Part (s : Store) : Parser → Parser → Prop
  /-- A parser is a part of itself. -/
  | self (p : Parser) : Part s p p
  /-- What is part of a child is part of the parser. -/
  | child {p c q} (hc : c ∈ p.children) (hq : Part s c q) : Part s p q
  /-- What is part of a rule is part of every parser that calls the rule. -/
  | called {p id rule q} (hp : p.target? = some id) (hrule : s.rule? id = some rule)
      (hq : Part s rule.body q) : Part s p q

/-- All parts of a parser have a property. -/
def Everywhere (s : Store) (good : Parser → Prop) (p : Parser) : Prop := ∀ q, s.Part p q → good q

namespace Everywhere

variable {s : Store} {good : Parser → Prop} {p q a b c body : Parser}

/-- The parser itself has the property. -/
theorem self (h : s.Everywhere good p) : good p := h p (.self p)

/-- The property holds everywhere in a child. -/
theorem child (h : s.Everywhere good p) (hc : c ∈ p.children) : s.Everywhere good c :=
  fun q hq => h q (.child hc hq)

/-- The property holds everywhere in a rule that is called. -/
theorem called {id : RuleId} {rule : Rule} (h : s.Everywhere good p) (hp : p.target? = some id)
    (hrule : s.rule? id = some rule) : s.Everywhere good rule.body :=
  fun q hq => h q (.called hp hrule hq)

/-- A property holds everywhere if it holds of the parser, and everywhere in its children and in the
rule it calls. -/
theorem intro (hself : good p) (hchild : ∀ c ∈ p.children, s.Everywhere good c)
    (hcalled : ∀ id rule, p.target? = some id → s.rule? id = some rule →
      s.Everywhere good rule.body) : s.Everywhere good p := by
  intro q hq
  cases hq with
  | self => exact hself
  | child hc hq => exact hchild _ hc q hq
  | called hp hrule hq => exact hcalled _ _ hp hrule q hq

/-- A property follows everywhere from an invariant that children and called rules inherit. -/
theorem of_invariant (invariant : Parser → Prop) (hp : invariant p)
    (hchild : ∀ p, invariant p → ∀ c ∈ p.children, invariant c)
    (hcalled : ∀ p id rule, invariant p → p.target? = some id → s.rule? id = some rule →
      invariant rule.body)
    (hgood : ∀ p, invariant p → good p) : s.Everywhere good p := by
  intro q hq
  induction hq with
  | self p => exact hgood p hp
  | child hc _ ih => exact ih (hchild _ hp _ hc)
  | called htarget hrule _ ih => exact ih (hcalled _ _ _ hp htarget hrule)

/-- A property of parsers that only call rules of one table holds everywhere in a parser, if the
parser and the rules of the table are put together from parsers that have it. -/
theorem of_closed_table {table : Nat} {rules : Array Rule} (htable : s.table table = .ready rules)
    (hclosed : ∀ q, good q → q.CallsInto table) (hp : p.All good)
    (hrules : ∀ rule ∈ rules.toList, rule.body.All good) : s.Everywhere good p := by
  refine of_invariant (Parser.All good) hp ?_ ?_ ?_
  · exact fun q hq c hc => hq.child hc
  · intro q id rule hq htarget hrule
    have hid : id.table = table := hclosed q hq.self id htarget
    simp only [rule?, hid, htable] at hrule
    exact hrules rule (Array.mem_toList_iff.2 (Array.mem_of_getElem? hrule))
  · exact fun q hq => hq.self

/-- A property holds everywhere in a parser that stays inside one table, if the parser and the rules
of the table are put together from parsers that have it. -/
theorem of_table {table : Nat} {rules : Array Rule} (htable : s.table table = .ready rules)
    (hp : p.All fun q => good q ∧ q.CallsInto table)
    (hrules : ∀ rule ∈ rules.toList, rule.body.All fun q => good q ∧ q.CallsInto table) :
    s.Everywhere good p :=
  fun q hq => (of_closed_table htable (fun _ hgood => hgood.2) hp hrules q hq).1

/-- Both parts of a sequence inherit the property. -/
theorem joins {keep : List Char → List Char → List Char} (h : s.Everywhere good p)
    (hp : Parser.Joins keep a b p) : s.Everywhere good a ∧ s.Everywhere good b := by
  cases hp <;> exact ⟨h.child (by simp [Parser.children]), h.child (by simp [Parser.children])⟩

/-- A sequence inherits a neutral property from its parts. -/
theorem andThen (hgood : Parser.Neutral good) (ha : s.Everywhere good a)
    (hb : s.Everywhere good b) : s.Everywhere good (.andThen a b) :=
  intro (hgood.andThen a b) (by simp [Parser.children, ha, hb]) (by simp [Parser.target?])

/-- A choice inherits a neutral property from its parts. -/
theorem orElse (hgood : Parser.Neutral good) (ha : s.Everywhere good a)
    (hb : s.Everywhere good b) : s.Everywhere good (.orElse a b) :=
  intro (hgood.orElse a b) (by simp [Parser.children, ha, hb]) (by simp [Parser.target?])

/-- A count inherits a neutral property from its body. -/
theorem exactly (hgood : Parser.Neutral good) (count : Nat)
    (hb : s.Everywhere good body) : s.Everywhere good (.exactly count body) :=
  intro (hgood.exactly count body) (by simp [Parser.children, hb]) (by simp [Parser.target?])

/-- The empty text has every neutral property. -/
theorem empty (hgood : Parser.Neutral good) : s.Everywhere good .empty :=
  intro hgood.empty (by simp [Parser.children]) (by simp [Parser.target?])

/-- The simpler form of a parser inherits a neutral property. -/
theorem expand (hgood : Parser.Neutral good) (h : s.Everywhere good p)
    (hp : p.expand? = some q) : s.Everywhere good q :=
  Parser.of_expand h hp (fun _ _ => child) (fun _ _ => andThen hgood) (fun _ _ => orElse hgood)
    (fun count _ => exactly hgood count) (empty hgood)

end Everywhere

/-! ## A small recursive grammar -/

/-- One rule: angle brackets around any number of the same. -/
def anglesRules : Array Rule :=
  #[⟨"angles", .between (.many0 (.reference "angles" ⟨0, 0⟩)) (.one '⟨') (.one '⟩')⟩]

/-- A store with the rule of angle brackets, on which the theorems about all stores are tried. -/
def angles : Store := ⟨#[.ready anglesRules]⟩

/-- The entry of the grammar of angle brackets. -/
def anglesEntry : Parser := .entry "angles" ⟨0, 0⟩

/-- A property of brackets, loops, references, entries and characters holds everywhere in the
grammar of angle brackets. -/
theorem everywhere_anglesEntry {good : Parser → Prop} (hentry : ∀ name id, good (.entry name id))
    (hreference : ∀ name id, good (.reference name id)) (hmany0 : ∀ body, good (.many0 body))
    (hbetween : ∀ inner opening closing, good (.between inner opening closing))
    (hone : ∀ c, good (.one c)) : angles.Everywhere good anglesEntry := by
  have htable : angles.table 0 = .ready anglesRules := rfl
  refine .of_table htable ?_ ?_
  · simp [Parser.All, anglesEntry, Parser.CallsInto, Parser.target?, hentry]
  · simp [anglesRules, Parser.All, Parser.CallsInto, Parser.target?, hbetween, hmany0, hreference,
      hone]

end Store

end Descent
