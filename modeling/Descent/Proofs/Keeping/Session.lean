import Descent.Proofs.Build.Outcome
import Descent.Proofs.Json.Rules
import Descent.Proofs.Keeping.Run
import Descent.Session.Basic
import Mathlib.Data.List.Forall2

/-!
# Recipes that keep every match

A recipe keeps every match once the sequences that drop one are made to join both, in the rules of its
grammars as well. Then it makes the parser that keeps every match, and leaves the tables and slots
that do. One step of making a parser after the other commutes with keeping (`Build.Commutes`), since
builders hand parsers on and never look into them.
-/

namespace Descent

namespace Recipe

mutual

/-- The recipe that keeps every match. What stands in slots is not its own. -/
def keepAll : Recipe → Recipe
  | many0 body => many0 body.keepAll
  | many1 body => many1 body.keepAll
  | exactly count body => exactly count body.keepAll
  | between inner opening closing => between inner.keepAll opening.keepAll closing.keepAll
  | orElse a b => orElse a.keepAll b.keepAll
  | andThen a b => andThen a.keepAll b.keepAll
  | thenOptional a b => thenOptional a.keepAll b.keepAll
  | optionalThen a b => optionalThen a.keepAll b.keepAll
  | thenIgnore a b => andThen a.keepAll b.keepAll
  | ignoreThen a b => andThen a.keepAll b.keepAll
  | named name body => named name body.keepAll
  | grammar rules start => grammar (keepAllRules rules) start
  | recipe => recipe

/-- The rules of a grammar, by recipes that keep every match. -/
def keepAllRules : List (String × Recipe) → List (String × Recipe)
  | [] => []
  | (name, recipe) :: rest => (name, recipe.keepAll) :: keepAllRules rest

end

end Recipe

namespace Slots

variable {α β : Type} (f : α → β) (s : Slots α) (name : String)

/-- The slots with something made of every value. -/
def map : Slots β := ⟨s.entries.map fun entry => (entry.1, f entry.2)⟩

/-- What is found among the values made of others is made of the value that is found among these. -/
theorem get?_map : (s.map f).get? name = (s.get? name).map f := by
  unfold get? map
  induction s.entries with
  | nil => rfl
  | cons entry entries ih =>
    obtain ⟨other, value⟩ := entry
    simp only [List.map_cons, List.lookup_cons, ih]
    cases name == other <;> rfl

/-- Where a value is put, the value made of it is put among those made of the others. -/
theorem map_put (value : α) : (s.put name value).map f = (s.map f).put name (f value) := by
  simp [map, put, erase, List.filter_map, Function.comp_def]

/-- The values of the slots are made of all values. -/
theorem values_map : (s.map f).values = s.values.map f := by
  simp [map, values]

end Slots

/-! ## Stores and sites -/

namespace Store

variable (s : Store)

/-- A store that keeps every match has as many tables as before. -/
theorem size_keepAll : s.keepAll.tables.size = s.tables.size := Array.size_map

/-- A new table has no rules yet, so that it is the same on either side. -/
theorem allocate_keepAll : s.allocate.2.keepAll = s.keepAll.allocate.2 := by
  simp [allocate, keepAll, Table.keepAll]

/-- A table is given its new state, with every match kept. -/
theorem put_keepAll (id : Nat) (table : Table) :
    (s.put id table).keepAll = s.keepAll.put id table.keepAll := by
  simp [put, keepAll]

end Store

/-- The site on which every match is kept, in its tables and in its slots. -/
def Site.keepAll (site : Site Desk) : Site Desk :=
  { site with
    store := site.store.keepAll
    own := { site.own with slots := site.own.slots.map Parser.keepAll } }

/-- A grammar that is built there gets the number that it would get. -/
theorem Site.size_keepAll (site : Site Desk) :
    site.keepAll.store.tables.size = site.store.tables.size := site.store.size_keepAll

/-! ## Work that commutes with keeping every match -/

variable {α α' β β' : Type} {f : α → α'} {g : β → β'}

/-- On a site where every match is kept, the second work does what the first does elsewhere, and makes
what `f` makes of its result. -/
def Build.Commutes (f : α → α') (work : Build Desk α) (work' : Build Desk α') : Prop :=
  ∀ site : Site Desk, work' site.keepAll = (f (work site).1, (work site).2.keepAll)

namespace Build.Commutes

/-- Work that ends at once. -/
theorem pure (x : α) : Commutes f (pure x) (pure (f x)) := fun _ => rfl

/-- Work that goes on with a result. -/
theorem bind {work : Build Desk α} {work' : Build Desk α'} {next : α → Build Desk β}
    {next' : α' → Build Desk β'} (h : Commutes f work work')
    (hnext : ∀ x, Commutes g (next x) (next' (f x))) :
    Commutes g (work >>= next) (work' >>= next') := by
  intro site
  change next' (work' site.keepAll).1 (work' site.keepAll).2 = _
  rw [h site]
  exact hnext _ _

/-- Work that goes on unless it has come to an error. -/
theorem unlessError {work : Build Desk (Except GrammarError α)}
    {work' : Build Desk (Except GrammarError α')} {next : α → Build Desk (Except GrammarError β)}
    {next' : α' → Build Desk (Except GrammarError β')} (h : Commutes (Except.map f) work work')
    (hnext : ∀ x, Commutes (Except.map g) (next x) (next' (f x))) :
    Commutes (Except.map g) (Build.unlessError work next) (Build.unlessError work' next') := by
  refine h.bind fun result => ?_
  cases result with
  | ok x => exact hnext x
  | error e => exact Build.Commutes.pure (Except.error e)

end Build.Commutes

/-- A handle gives references, which hold no match to be kept. -/
theorem Rules.rule_commutes (rules : Rules) (name : String) :
    Build.Commutes Parser.keepAll (rules.rule name) (rules.rule name) := by
  intro site
  unfold Rules.rule
  cases rules.names.idxOf? name <;> rfl

/-! ## Grammars -/

namespace Grammar

/-- Two rules bear the same name, and their builders commute with keeping every match. -/
structure SameRule (d d' : Declaration Desk) : Prop where
  name : d'.name = d.name
  builder : ∀ rules, Build.Commutes Parser.keepAll (d.builder rules) (d'.builder rules)

variable {d d' : Declaration Desk} {ds ds' : List (Declaration Desk)}

/-- A builder in its turn makes the body that keeps every match. -/
theorem turn_keepAll (table : Nat) (names : List String) (site : Site Desk) (h : SameRule d d') :
    turn table names site.keepAll d' =
      ((turn table names site d).1.keepAll, (turn table names site d).2.keepAll) := by
  rw [turn, h.name]
  exact h.builder ⟨table, names, d.name⟩ { site with missing := [] }

/-- A builder in its turn ends with the rule that keeps every match, or with the same unknown name.
-/
theorem buildRule_commutes (table : Nat) (names : List String) (h : SameRule d d') :
    Build.Commutes (Except.map Rule.keepAll) (buildRule table names d)
      (buildRule table names d') := by
  intro site
  have hmissing : (turn table names site d).2.keepAll.missing =
    (turn table names site d).2.missing := rfl
  simp only [buildRule_eq, afterTurn, turn_keepAll table names site h, hmissing, h.name]
  cases (turn table names site d).2.missing <;> rfl

/-- Builders one after the other end with the rules that keep every match, or with the same unknown
name. -/
theorem buildRules_commutes (table : Nat) (names : List String)
    (h : List.Forall₂ SameRule ds ds') :
    Build.Commutes (Except.map (List.map Rule.keepAll)) (buildRules table names ds)
      (buildRules table names ds') := by
  induction h with
  | nil => exact fun _ => rfl
  | cons hd _ ih =>
    rw [buildRules_cons, buildRules_cons]
    refine (buildRule_commutes table names hd).unlessError fun rule => ?_
    exact ih.unlessError fun rules => Build.Commutes.pure (Except.ok (rule :: rules))

/-- A grammar is built with rules that keep every match, and has the same entry. -/
theorem build_commutes (h : List.Forall₂ SameRule ds ds') (start : String) :
    Build.Commutes (Except.map Parser.keepAll) (build ds start) (build ds' start) := by
  intro site
  have hnames : ds'.map (·.name) = ds.map (·.name) := by
    induction h with
    | nil => rfl
    | cons hd _ ih => rw [List.map_cons, List.map_cons, hd.name, ih]
  unfold build
  dsimp only
  rw [hnames]
  cases firstRepeated? [] (ds.map (·.name)) with
  | some name => rfl
  | none =>
    cases (ds.map (·.name)).idxOf? start with
    | none => rfl
    | some slot =>
      have hrules := buildRules_commutes site.store.tables.size (ds.map (·.name)) h
        { site with store := site.store.allocate.2 }
      have hopened : { site.keepAll with store := site.keepAll.store.allocate.2 } =
          Site.keepAll { site with store := site.store.allocate.2 } := by
        simp only [Site.keepAll, Store.allocate_keepAll]
      rcases hresult : buildRules site.store.tables.size (ds.map (·.name)) ds
        { site with store := site.store.allocate.2 } with ⟨e | rules, left⟩
      · rw [hresult] at hrules
        simp only [Store.allocate_fst, Site.size_keepAll, hopened, hrules, hresult]
        simp [Except.map, Site.keepAll, Store.put_keepAll, Table.keepAll]
      · rw [hresult] at hrules
        simp only [Store.allocate_fst, Site.size_keepAll, hopened, hrules, hresult]
        simp [Except.map, Site.keepAll, Store.put_keepAll, Table.keepAll, Parser.keepAll]

end Grammar

/-- The rules of the JSON grammar drop nothing. -/
theorem Json.map_keepAll_rules (table : Nat) :
    (rules table).map Rule.keepAll = rules table := by
  have hkeeping (q : Parser) (hq : q.Conserving) : q.Keeping := by
    cases q <;> trivial
  have hbody (n : RuleName) : (n.body (ref table)).keepAll = n.body (ref table) :=
    Parser.keepAll_of_keeping ((all_body table n).imp fun q hq => hkeeping q hq.2.1)
  simp [rules, Rule.keepAll, hbody]

/-- The grammars of the library are built in the same way. -/
theorem Ready.build_commutes (grammar : Ready) :
    Build.Commutes (Except.map Parser.keepAll) grammar.build grammar.build := by
  cases grammar with
  | json =>
    intro site
    simp only [Ready.build, Json.grammar_eq, Site.size_keepAll]
    simp [Except.map, Parser.keepAll, Site.keepAll, Store.keepAll, Table.keepAll,
      Json.map_keepAll_rules]
  | assignment =>
    have hrules : List.Forall₂ Grammar.SameRule Assignment.declarations Assignment.declarations := by
      refine .cons ⟨rfl, fun rules site => rfl⟩ (.cons ⟨rfl, fun rules => ?_⟩ .nil)
      exact (rules.rule_commutes "equals").bind fun p => Build.Commutes.pure _
    exact Grammar.build_commutes hrules "assign"
  | strict =>
    have hrules : List.Forall₂ Grammar.SameRule Assignment.strictDeclarations
        Assignment.strictDeclarations := .cons ⟨rfl, fun rules site => rfl⟩ .nil
    exact Grammar.build_commutes hrules "assign"

/-! ## Recipes -/

/-- Work that can come to a fault commutes with keeping every match. -/
def Prepare.Commutes (f : α → α') (work : Prepare α) (work' : Prepare α') : Prop :=
  Build.Commutes (Except.map f) (work : Build Desk (Except Fault α)) work'

namespace Prepare.Commutes

/-- Work that ends at once. -/
theorem pure (x : α) : Prepare.Commutes f (pure x) (pure (f x)) := fun _ => rfl

/-- Work that comes to a fault at once. -/
theorem fault (e : Fault) : Prepare.Commutes f (throw e) (throw e) := fun _ => rfl

/-- Work that goes on unless it has come to a fault. -/
theorem bind {work : Prepare α} {work' : Prepare α'} {next : α → Prepare β}
    {next' : α' → Prepare β'} (h : Prepare.Commutes f work work')
    (hnext : ∀ x, Prepare.Commutes g (next x) (next' (f x))) :
    Prepare.Commutes g (work >>= next) (work' >>= next') := by
  refine @Build.Commutes.bind _ _ _ _ _ _ work work' (ExceptT.bindCont next)
    (ExceptT.bindCont next') h fun result => ?_
  cases result with
  | ok x => exact hnext x
  | error e => exact Build.Commutes.pure (Except.error e)

/-- Work that cannot come to a fault. -/
theorem lift {work : Build Desk α} {work' : Build Desk α'} (h : Build.Commutes f work work') :
    Prepare.Commutes f (ExceptT.lift work) (ExceptT.lift work') := by
  intro site
  change ((fun x => (Except.ok x.1, x.2)) (work' site.keepAll)) = _
  rw [h site]
  rfl

/-- The build of a grammar. -/
theorem ofBuild {build build' : Build Desk (Except GrammarError Parser)}
    (h : Build.Commutes (Except.map Parser.keepAll) build build') :
    Prepare.Commutes Parser.keepAll (Prepare.ofBuild build) (Prepare.ofBuild build') := by
  intro site
  unfold Prepare.ofBuild
  rw [h site]
  rcases build site with ⟨e | p, left⟩ <;> rfl

/-- What is in a slot keeps every match if all slots do. -/
theorem slot (name : String) :
    Prepare.Commutes Parser.keepAll (Prepare.slot name) (Prepare.slot name) := by
  intro site
  have hslot : site.keepAll.own.slots.get? name = (site.own.slots.get? name).map Parser.keepAll :=
    Slots.get?_map ..
  unfold Prepare.slot
  rw [hslot]
  cases site.own.slots.get? name <;> rfl

/-- What is put aside keeps every match. -/
theorem putAside (name : String) (p : Parser) :
    Prepare.Commutes id (Prepare.putAside name p) (Prepare.putAside name p.keepAll) := by
  intro site
  simp [Prepare.putAside, Site.keepAll, Slots.map_put, Except.map]

/-- A grammar whose builders can come to faults. -/
theorem grammar {ds ds' : List (Declaration Desk)} (h : List.Forall₂ Grammar.SameRule ds ds')
    (start : String) :
    Prepare.Commutes Parser.keepAll (Prepare.grammar ds start) (Prepare.grammar ds' start) := by
  intro site
  have hbuild := Grammar.build_commutes h start { site with own := { site.own with fault := none } }
  have hquiet : { site.keepAll with own := { site.keepAll.own with fault := none } } =
      Site.keepAll { site with own := { site.own with fault := none } } := rfl
  unfold Prepare.grammar
  rcases hresult : Grammar.build ds start { site with own := { site.own with fault := none } } with
    ⟨e | p, left⟩
  · rw [hresult] at hbuild
    simp only [hquiet, hbuild]
    rfl
  · rw [hresult] at hbuild
    simp only [hquiet, hbuild]
    cases hfault : left.own.fault <;> simp [Site.keepAll, Except.map, hfault]

/-- A parser made from one. -/
theorem one {work work' : Prepare Parser} {make make' : Parser → Parser}
    (h : Prepare.Commutes Parser.keepAll work work')
    (hmake : ∀ p, (make p).keepAll = make' p.keepAll) :
    Prepare.Commutes Parser.keepAll (do return make (← work)) (do return make' (← work')) :=
  h.bind fun p => hmake p ▸ .pure (make p)

/-- A parser made from two. -/
theorem two {first first' second second' : Prepare Parser} {make make' : Parser → Parser → Parser}
    (h : Prepare.Commutes Parser.keepAll first first')
    (h' : Prepare.Commutes Parser.keepAll second second')
    (hmake : ∀ p q, (make p q).keepAll = make' p.keepAll q.keepAll) :
    Prepare.Commutes Parser.keepAll (do return make (← first) (← second))
      (do return make' (← first') (← second')) :=
  h.bind fun p => h'.bind fun q => hmake p q ▸ .pure (make p q)

end Prepare.Commutes

/-- A builder goes on after a fault with the empty text, which holds no match to be kept. -/
theorem Grammar.SameRule.asBuilder (name : String) {work work' : Rules → Prepare Parser}
    (h : ∀ rules, Prepare.Commutes Parser.keepAll (work rules) (work' rules)) :
    Grammar.SameRule ⟨name, Prepare.asBuilder work⟩ ⟨name, Prepare.asBuilder work'⟩ where
  name := rfl
  builder rules site := by
    simp only [Prepare.asBuilder, h rules site]
    rcases work rules site with ⟨e | p, left⟩ <;> rfl

namespace Recipe

mutual

/-- The recipe that keeps every match makes the parser that does, where every match is kept. -/
theorem prepare_commutes (rules : Rules) : ∀ recipe : Recipe,
    Prepare.Commutes Parser.keepAll (recipe.prepare rules) (recipe.keepAll.prepare rules)
  | eof | empty | whitespace | anyLetter | anyNumber | one _ | literal _ | anyChar _ | anyCharBut _
  | handmade _ _ | current => .pure _
  | pattern source => by
    unfold keepAll prepare
    cases Pattern.ofSource? .machine source with
    | none => exact .fault _
    | some p => exact .pure _
  | many0 body | many1 body | exactly _ body | named _ body =>
    .one (prepare_commutes rules body) fun _ => rfl
  | orElse a b | andThen a b | thenOptional a b | optionalThen a b | thenIgnore a b
  | ignoreThen a b => .two (prepare_commutes rules a) (prepare_commutes rules b) fun _ _ => rfl
  | between inner opening closing =>
    (prepare_commutes rules inner).bind fun _ =>
      (prepare_commutes rules opening).bind fun _ =>
        (prepare_commutes rules closing).bind fun _ => .pure _
  | ready g => .ofBuild g.build_commutes
  | grammar declared start => .grammar (declarations_commute declared) start
  | rule name => .lift (rules.rule_commutes name)
  | escape into name =>
    (Prepare.Commutes.lift (rules.rule_commutes name)).bind fun p =>
      (Prepare.Commutes.putAside into p).bind fun _ => .pure p
  | slot name => .slot name

/-- The builders for the rules of a grammar make the bodies that keep every match. -/
theorem declarations_commute : ∀ declared : List (String × Recipe),
    List.Forall₂ Grammar.SameRule (declarations declared) (declarations (keepAllRules declared))
  | [] => .nil
  | (name, recipe) :: rest =>
    .cons (.asBuilder name fun rules => prepare_commutes rules recipe) (declarations_commute rest)

end

end Recipe

/-! ## Sessions -/

/-- What keeps every match keeps the same tables. -/
theorem Parser.kept_keepAll (p : Parser) : p.keepAll.kept = p.kept := by
  induction p with
  | many0 body ih | many1 body ih | exactly count body ih | named name body ih
  | guarded objection body ih => exact ih
  | between inner opening closing ihInner ihOpening ihClosing =>
    simp only [keepAll, kept, ihInner, ihOpening, ihClosing]
  | orElse a b iha ihb | andThen a b iha ihb | thenOptional a b iha ihb
  | optionalThen a b iha ihb | thenIgnore a b iha ihb | ignoreThen a b iha ihb =>
    simp only [keepAll, kept, iha, ihb]
  | _ => rfl

namespace Store

/-- The rules of a table keep the same tables, whether they keep every match or not. -/
theorem keptBy_keepAll (s : Store) (id : Nat) : s.keepAll.keptBy id = s.keptBy id := by
  unfold keptBy
  rw [table_keepAll]
  cases s.table id with
  | forming | dropped => rfl
  | ready rules =>
    simp [Table.keepAll, Rule.keepAll, List.flatMap_map, Parser.kept_keepAll]

/-- The same tables are reached, whether every match is kept or not. -/
theorem reach_keepAll (s : Store) (rounds : Nat) (ids : List Nat) :
    s.keepAll.reach rounds ids = s.reach rounds ids := by
  have hkept : s.keepAll.keptBy = s.keptBy := funext s.keptBy_keepAll
  induction rounds generalizing ids with
  | zero => rfl
  | succ rounds ih => simp only [reach, hkept, ih]

/-- The same tables are dropped, whether every match is kept or not. -/
theorem collect_keepAll (s : Store) (parsers : List Parser) :
    (s.collect parsers).keepAll = s.keepAll.collect (parsers.map Parser.keepAll) := by
  have hparsers : (parsers.map Parser.keepAll).flatMap Parser.kept = parsers.flatMap Parser.kept := by
    simp [List.flatMap_map, Parser.kept_keepAll]
  unfold collect
  rw [hparsers, reach_keepAll, size_keepAll]
  refine congrArg Store.mk (Array.ext (by simp [keepAll]) fun id _ _ => ?_)
  simp only [keepAll, Array.getElem_map, Array.getElem_mapIdx]
  split <;> rfl

end Store

/-- The sequence whose parsers keep every match. -/
def Sequence.keepAll (q : Sequence α) : Sequence α :=
  { q with
    parsers := q.parsers.map Parser.keepAll
    nonempty := by simp [q.nonempty] }

namespace Session

/-- The session in which every match is kept. -/
def keepAll (s : Session) : Session :=
  ⟨s.store.keepAll, s.slots.map Parser.keepAll, s.sequences.map Sequence.keepAll⟩

/-- Every parser at hand keeps every match. -/
theorem parsers_keepAll (s : Session) : s.keepAll.parsers = s.parsers.map Parser.keepAll := by
  simp [parsers, keepAll, Slots.values_map, List.map_flatMap, List.flatMap_map, Sequence.keepAll]

/-- The same tables are dropped when nobody keeps them. -/
theorem collect_keepAll (s : Session) (others : List Parser) :
    (s.collect others).keepAll = s.keepAll.collect (others.map Parser.keepAll) := by
  rw [collect, collect, parsers_keepAll, ← List.map_append]
  simp only [keepAll, Store.collect_keepAll]

/-- Work of recipes comes to the same, with the same log. -/
theorem work_keepAll {f : α → α'} {work : Prepare α} {work' : Prepare α'} (s : Session)
    (h : Prepare.Commutes f work work') : s.keepAll.work work' =
      ((s.work work).1.map f, (s.work work).2.1, (s.work work).2.2.keepAll) := by
  have hdone := h (.fresh s.store ⟨s.slots, none⟩)
  have hsite : Site.fresh s.keepAll.store ⟨s.keepAll.slots, none⟩ =
      Site.keepAll (.fresh s.store ⟨s.slots, none⟩) := rfl
  unfold Session.work
  rw [hsite]
  simp only [hdone]
  rfl

/-- A recipe that keeps every match makes the parser that does, and leaves the session that does. -/
theorem prepare_keepAll (s : Session) (recipe : Recipe) : s.keepAll.prepare recipe.keepAll =
    ((s.prepare recipe).1.map Parser.keepAll, (s.prepare recipe).2.1,
      (s.prepare recipe).2.2.keepAll) := by
  have hwork := s.work_keepAll (recipe.prepare_commutes noRules)
  unfold Session.prepare
  rw [hwork]
  simp only [collect_keepAll]
  rcases (s.work (recipe.prepare noRules)).1 with e | p <;> rfl

/-- Dropping matches never changes what is parsed. In a session where every match is kept, the recipe
that keeps every match makes the parser that does, or comes to the same fault. Nothing is dropped
then in this parser or in any rule that it calls. It has a result exactly where the other has one: it
succeeds or fails as the other does, leaves the same text, and on success the match of the other is
scattered in its own. -/
theorem run_keeps (s : Session) :
    (∀ recipe : Recipe, s.keepAll.prepare recipe.keepAll =
      ((s.prepare recipe).1.map Parser.keepAll, (s.prepare recipe).2.1,
        (s.prepare recipe).2.2.keepAll)) ∧
    ∀ p : Parser, s.keepAll.store.Everywhere Parser.Keeping p.keepAll ∧
      (∀ depth t, Option.Rel Run.Thinner (s.store.step depth p t)
        (s.keepAll.store.step depth p.keepAll t)) ∧
      ∀ t, Option.Rel Run.Thinner (s.store.run p t) (s.keepAll.store.run p.keepAll t) :=
  ⟨s.prepare_keepAll, fun p => ⟨s.store.everywhere_keeping p,
    fun depth => s.store.step_thins depth p, s.store.run_thins p⟩⟩

/-- The quotes around a word are dropped, or kept. -/
example :
    let p : Parser := .ignoreThen (.one '"') (.thenIgnore (.many0 .anyLetter) (.one '"'))
    let t : Text := .ofList ['"', 'h', 'i', '"', '.']
    Store.empty.step 3 p t = some ⟨.success ['h', 'i'] (.ofList ['.']), []⟩ ∧
      Store.empty.step 3 p.keepAll t =
        some ⟨.success ['"', 'h', 'i', '"'] (.ofList ['.']), []⟩ := ⟨rfl, rfl⟩

end Session

end Descent
