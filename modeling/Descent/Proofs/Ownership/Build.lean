import Descent.Proofs.Build.Outcome
import Descent.Proofs.Json.Rules
import Descent.Proofs.Ownership.Reach
import Descent.Session.Recipe

/-!
# Building keeps the store sound

Work on a desk is tidy if it only adds tables, finishes those that it starts, and leaves a sound store
in which everything that its result keeps is ready. A grammar gets its rules when they are all made,
and until then nobody holds its entry; so a build is tidy if its builders are, and so is all that a
recipe can do (`Recipe.prepare_tidy`).
-/

namespace Descent

namespace Store

variable {s s' s'' : Store} {id : Nat} {ids ids' : List Nat}

/-- Tables have been added, and all of them are finished. -/
structure Grown (s s' : Store) : Prop extends s.Extends s' where
  finished : ∀ id, s.tables.size ≤ id → s'.table id ≠ .forming

/-- Nothing has been added. -/
theorem Grown.refl (s : Store) : s.Grown s :=
  ⟨.refl s, fun id hid => by simp [table_of_size_le hid]⟩

/-- Additions follow each other. -/
theorem Grown.trans (h : s.Grown s') (h' : s'.Grown s'') : s.Grown s'' where
  toExtends := h.toExtends.trans h'.toExtends
  finished id hid := by
    by_cases hlt : id < s'.tables.size
    · rw [h'.table_eq id hlt]
      exact h.finished id hid
    · exact h'.finished id (Nat.le_of_not_lt hlt)

/-- What is ready stays so. -/
theorem Ready.grown (h : s.Ready ids) (hs : s.Extends s') : s'.Ready ids := fun id hid => by
  rw [hs.table_eq id (h.lt_size hid)]
  exact h id hid

/-- Some of the tables that are ready are ready. -/
theorem Ready.subset (h : s.Ready ids) (hids : ids' ⊆ ids) : s.Ready ids' := fun id hid =>
  h id (hids hid)

/-- Tables are ready together. -/
theorem Ready.append (h : s.Ready ids) (h' : s.Ready ids') : s.Ready (ids ++ ids') := fun id hid =>
  (List.mem_append.1 hid).elim (h id) (h' id)

/-- Soundness is about what tables keep, and about which are ready. -/
theorem Sound.congr (h : s.Sound) (hkept : ∀ id, s'.keptBy id = s.keptBy id)
    (hready : ∀ ids, s.Ready ids → s'.Ready ids) : s'.Sound := by
  have hkeeps : s'.Keeps = s.Keeps := by
    funext a b
    simp only [Keeps, hkept]
  exact ⟨fun a => hkept a ▸ hready _ (h.kept a), fun a => hkeeps ▸ h.acyclic a⟩

/-- A new table keeps nothing. -/
theorem Sound.allocate (h : s.Sound) : s.allocate.2.Sound := by
  refine h.congr (fun id => ?_) fun ids hids => hids.grown (.allocate s)
  by_cases hid : id = s.tables.size
  · have hold : s.table id = .dropped := table_of_size_le hid.ge
    have hnew : s.allocate.2.table id = .forming := by rw [table_allocate, if_pos hid]
    simp only [keptBy, hold, hnew]
  · exact keptBy_congr (by rw [table_allocate, if_neg hid])

variable {table : Table}

/-- The new state of a table that was forming leaves all others ready that were. -/
theorem Ready.put (h : s.Ready ids) (hid : s.table id = .forming) (table : Table) :
    (s.put id table).Ready ids := by
  intro other hother
  obtain ⟨rules, hrules⟩ := h other hother
  have hne : other ≠ id := by
    rintro rfl
    rw [hid] at hrules
    cases hrules
  exact ⟨rules, (table_put_of_ne hne).trans hrules⟩

/-- A table that was forming can be given up. -/
theorem Sound.put_dropped (h : s.Sound) (hid : s.table id = .forming) :
    (s.put id .dropped).Sound := by
  refine h.congr (fun other => ?_) fun ids hids => hids.put hid .dropped
  by_cases heq : other = id
  · have hnew : (s.put id .dropped).table id = .dropped :=
      table_put_self (lt_size_of_table_ne (by simp [hid]))
    simp only [keptBy, heq, hid, hnew]
  · exact keptBy_congr (table_put_of_ne heq)

/-- What is new about a node without incoming edges makes no cycle. -/
theorem acyclic_of_source {r r' : Nat → Nat → Prop} (hr : ∀ a, ¬ Relation.TransGen r a a)
    (hsource : ∀ a b, r' a b → b ≠ id) (hold : ∀ a b, a ≠ id → r' a b → r a b) (a : Nat) :
    ¬ Relation.TransGen r' a a := by
  intro hcycle
  have ha : a ≠ id := by
    obtain ⟨b, _, hstep⟩ := Relation.TransGen.tail'_iff.1 hcycle
    exact hsource b a hstep
  have hpath {b : Nat} (hpath : Relation.TransGen r' a b) : b ≠ id ∧ Relation.TransGen r a b := by
    induction hpath with
    | single hstep => exact ⟨hsource _ _ hstep, .single (hold _ _ ha hstep)⟩
    | tail _ hstep ih => exact ⟨hsource _ _ hstep, ih.2.tail (hold _ _ ih.1 hstep)⟩
  exact hr a (hpath hcycle).2

/-- A table that was forming can be given rules that keep tables which are ready. As nobody keeps the
table yet, there is no way back to it. -/
theorem Sound.put_ready (h : s.Sound) (hid : s.table id = .forming) {rules : List Rule}
    (hrules : s.Ready (rules.flatMap (·.body.kept))) :
    (s.put id (.ready rules.toArray)).Sound := by
  have hlt : id < s.tables.size := lt_size_of_table_ne (by simp [hid])
  have hkept (a : Nat) : (s.put id (.ready rules.toArray)).keptBy a =
      if a = id then rules.flatMap (·.body.kept) else s.keptBy a := by
    by_cases heq : a = id
    · simp only [keptBy, heq, table_put_self hlt, if_true]
    · rw [if_neg heq, keptBy_congr (table_put_of_ne heq)]
  have hready (a : Nat) : s.Ready ((s.put id (.ready rules.toArray)).keptBy a) := by
    rw [hkept]
    split
    · exact hrules
    · exact h.kept a
  have hsource (a b : Nat) (hkeeps : (s.put id (.ready rules.toArray)).Keeps a b) : b ≠ id := by
    rintro rfl
    obtain ⟨rules', htable⟩ := hready a b hkeeps
    cases hid.symm.trans htable
  have hold (a b : Nat) (ha : a ≠ id) (hkeeps : (s.put id (.ready rules.toArray)).Keeps a b) :
      s.Keeps a b := by
    unfold Keeps at hkeeps ⊢
    rwa [hkept, if_neg ha] at hkeeps
  exact ⟨fun a => (hready a).put hid _, acyclic_of_source h.acyclic hsource hold⟩

/-- A table that was started is forming until it gets another state. -/
theorem table_of_started (h : s.allocate.2.Extends s') : s'.table s.tables.size = .forming := by
  rw [h.table_eq _ (by simp), table_allocate, if_pos rfl]

/-- A table that was started is finished by another state than that of forming. -/
theorem Grown.close (h : s.allocate.2.Grown s') (htable : table ≠ .forming) :
    s.Grown (s'.put s.tables.size table) where
  toExtends := ((Extends.allocate s).trans h.toExtends).put (Nat.le_refl _) table
  finished id hid := by
    by_cases heq : id = s.tables.size
    · rw [heq, table_put_self h.size_lt]
      exact htable
    · rw [table_put_of_ne heq]
      exact h.finished id (by rw [size_allocate]; omega)

end Store

namespace Slots

variable {α : Type} {s : Slots α} {name : String} {value other : α}

/-- What is found under a name is a value. -/
theorem mem_values_of_get? (h : s.get? name = some value) : value ∈ s.values := by
  obtain ⟨front, back, hsplit, _⟩ := List.lookup_eq_some_iff.1 h
  exact List.mem_map.2 ⟨(name, value), by simp [hsplit], rfl⟩

/-- Only old values are left when one is taken away. -/
theorem mem_values_of_erase (h : other ∈ (s.erase name).values) : other ∈ s.values := by
  obtain ⟨entry, hentry, rfl⟩ := List.mem_map.1 h
  exact List.mem_map.2 ⟨entry, (List.mem_filter.1 hentry).1, rfl⟩

/-- A value that is put is the only new one. -/
theorem mem_values_put (h : other ∈ (s.put name value).values) : other = value ∨ other ∈ s.values :=
  (List.mem_cons.1 h).imp_right mem_values_of_erase

end Slots

/-! ## Tidy work -/

variable {α β : Type}

/-- The store of a desk is sound, and the parsers put aside keep tables that are ready. -/
structure Site.Sound (site : Site Desk) : Prop where
  store : site.store.Sound
  slots : ∀ p ∈ site.own.slots.values, site.store.Ready p.kept

/-- On a sound site where the tables that `needs` names are ready, the work leaves a sound site, has only
added tables, and those that its result keeps are ready. -/
def Build.Tidy (needs : List Nat) (keeps : α → List Nat) (work : Build Desk α) : Prop :=
  ∀ site : Site Desk, site.Sound → site.store.Ready needs →
    (work site).2.Sound ∧ site.store.Grown (work site).2.store ∧
      (work site).2.store.Ready (keeps (work site).1)

/-- What the result of work keeps that can fail. -/
def keptByResult {ε : Type} (keeps : α → List Nat) : Except ε α → List Nat
  | .ok x => keeps x
  | .error _ => []

namespace Build.Tidy

variable {needs needs' : List Nat} {keeps : α → List Nat} {keeps' : β → List Nat}

/-- More than what work needs may be ready. -/
theorem weaken {work : Build Desk α} (h : Build.Tidy needs keeps work) (hneeds : needs ⊆ needs') :
    Build.Tidy needs' keeps work :=
  fun site hsite hready => h site hsite (hready.subset hneeds)

/-- Work that ends at once is tidy if its result keeps only what is ready. -/
theorem pure {x : α} (hx : keeps x ⊆ needs) : Build.Tidy needs keeps (pure x) :=
  fun _ hsite hready => ⟨hsite, .refl _, hready.subset hx⟩

/-- Tidy work can be followed by tidy work, which may need what the first has kept. -/
theorem bind {work : Build Desk α} {next : α → Build Desk β} (h : Build.Tidy needs keeps work)
    (hnext : ∀ x, Build.Tidy (needs ++ keeps x) keeps' (next x)) :
    Build.Tidy needs keeps' (work >>= next) := by
  intro site hsite hready
  obtain ⟨hsite₁, hgrown, hkept⟩ := h site hsite hready
  obtain ⟨hsite₂, hgrown', hkept'⟩ :=
    hnext _ _ hsite₁ ((hready.grown hgrown.toExtends).append hkept)
  exact ⟨hsite₂, hgrown.trans hgrown', hkept'⟩

/-- Tidy work that can come to an error can be followed by tidy work. -/
theorem unlessError {work : Build Desk (Except GrammarError α)}
    {next : α → Build Desk (Except GrammarError β)}
    (h : Build.Tidy needs (keptByResult keeps) work)
    (hnext : ∀ x, Build.Tidy (needs ++ keeps x) (keptByResult keeps') (next x)) :
    Build.Tidy needs (keptByResult keeps') (Build.unlessError work next) := by
  refine h.bind fun result => ?_
  cases result with
  | ok x => exact hnext x
  | error e => exact .pure (List.nil_subset _)

end Build.Tidy

/-! ## Tidy builds -/

namespace Grammar

variable {table : Nat} {names : List String} {d : Declaration Desk} {ds : List (Declaration Desk)}

/-- A tidy builder makes a tidy rule. -/
theorem buildRule_tidy (hd : Build.Tidy [] Parser.kept (d.builder ⟨table, names, d.name⟩)) :
    Build.Tidy [] (keptByResult (·.body.kept)) (buildRule table names d) := by
  intro site hsite _
  obtain ⟨hleft, hgrown, hbody⟩ :=
    hd { site with missing := [] } ⟨hsite.store, hsite.slots⟩ (.nil _)
  rw [buildRule_eq]
  refine ⟨⟨hleft.store, hleft.slots⟩, hgrown, ?_⟩
  cases (turn table names site d).2.missing with
  | nil => exact hbody
  | cons name more => exact .nil _

/-- Tidy builders make tidy rules, one after the other. -/
theorem buildRules_tidy
    (hds : ∀ d ∈ ds, Build.Tidy [] Parser.kept (d.builder ⟨table, names, d.name⟩)) :
    Build.Tidy [] (keptByResult fun rules => rules.flatMap (·.body.kept))
      (buildRules table names ds) := by
  induction ds with
  | nil => exact .pure (List.Subset.refl [])
  | cons d ds ih =>
    have hrule := buildRule_tidy (hds d List.mem_cons_self)
    have hrules := ih fun e he => hds e (List.mem_cons_of_mem d he)
    rw [buildRules_cons]
    refine hrule.unlessError fun rule => ?_
    refine (hrules.weaken (List.nil_subset _)).unlessError fun rules => .pure ?_
    simp [keptByResult]

/-- The build of a grammar is tidy if its builders are. Its table gets its rules at last, and only
then there is an entry that keeps it. -/
theorem build_tidy (hds : ∀ table, ∀ d ∈ ds,
      Build.Tidy [] Parser.kept (d.builder ⟨table, ds.map (·.name), d.name⟩)) (start : String) :
    Build.Tidy [] (keptByResult Parser.kept) (build ds start) := by
  intro site hsite _
  unfold build
  dsimp only
  cases firstRepeated? [] (ds.map (·.name)) with
  | some name => exact ⟨hsite, .refl _, .nil _⟩
  | none =>
    cases (ds.map (·.name)).idxOf? start with
    | none => exact ⟨hsite, .refl _, .nil _⟩
    | some slot =>
      have hopened : Site.Sound { site with store := site.store.allocate.2 } :=
        ⟨hsite.store.allocate, fun p hp => (hsite.slots p hp).grown (.allocate _)⟩
      obtain ⟨hleft, hgrown, hrules⟩ := buildRules_tidy (hds site.store.tables.size) _ hopened
        (.nil _)
      have hforming := Store.table_of_started hgrown.toExtends
      rcases hresult : buildRules site.store.tables.size (ds.map (·.name)) ds
        { site with store := site.store.allocate.2 } with ⟨e | rules, left⟩
      · simp only [hresult] at hleft hgrown hforming
        simp only [Store.allocate_fst, hresult]
        refine ⟨⟨hleft.store.put_dropped hforming, fun p hp => ?_⟩, hgrown.close (by simp), .nil _⟩
        exact (hleft.slots p hp).put hforming .dropped
      · simp only [hresult] at hleft hgrown hforming hrules
        simp only [Store.allocate_fst, hresult]
        refine ⟨⟨hleft.store.put_ready hforming hrules, fun p hp => ?_⟩, hgrown.close (by simp), ?_⟩
        · exact (hleft.slots p hp).put hforming _
        · intro id hid
          rw [List.mem_singleton.1 hid]
          exact ⟨rules.toArray, Store.table_put_self hgrown.size_lt⟩

end Grammar

/-- A handle gives parsers that keep nothing. -/
theorem Rules.rule_tidy (rules : Rules) (name : String) (needs : List Nat) :
    Build.Tidy needs Parser.kept (rules.rule name) := by
  intro site hsite _
  unfold Rules.rule
  split
  · exact ⟨hsite, .refl _, .nil _⟩
  · exact ⟨⟨hsite.store, hsite.slots⟩, .refl _, .nil _⟩

/-- The grammars of the library are built tidily. -/
theorem Ready.build_tidy (grammar : Ready) :
    Build.Tidy [] (keptByResult Parser.kept) grammar.build := by
  have hreturn (p : Parser) (hp : p.kept = []) : Build.Tidy [] Parser.kept (Pure.pure p) :=
    .pure (hp ▸ List.Subset.refl [])
  cases grammar with
  | json =>
    intro site hsite _
    have hforming := Store.table_of_started (.refl site.store.allocate.2)
    have hkept : site.store.allocate.2.Ready
        ((Json.rules site.store.tables.size).toList.flatMap (·.body.kept)) := by
      have hnone : ∀ rule ∈ (Json.rules site.store.tables.size).toList, rule.body.kept = [] :=
        Json.forall_rules (fun body => body.kept = []) fun n => by cases n <;> rfl
      intro id hid
      obtain ⟨rule, hrule, hid⟩ := List.mem_flatMap.1 hid
      rw [hnone rule hrule] at hid
      cases hid
    simp only [Ready.build, Json.grammar_eq, ← Store.put_allocate]
    refine ⟨⟨hsite.store.allocate.put_ready hforming hkept, fun p hp => ?_⟩,
      (Store.Grown.refl _).close (by simp), fun id hid => ?_⟩
    · exact ((hsite.slots p hp).grown (.allocate _)).put hforming _
    · rw [List.mem_singleton.1 hid]
      exact ⟨_, Store.table_put_self (by simp)⟩
  | assignment =>
    refine Grammar.build_tidy (fun table => ?_) "assign"
    simp only [Assignment.declarations, List.forall_mem_cons]
    refine ⟨hreturn _ rfl, ?_, by simp⟩
    exact (Rules.rule_tidy _ "equals" []).bind fun p =>
      .pure (by simp [Parser.kept, Parser.shiftRight_eq])
  | strict =>
    refine Grammar.build_tidy (fun table => ?_) "assign"
    simp only [Assignment.strictDeclarations, List.forall_mem_cons]
    exact ⟨hreturn _ rfl, by simp⟩

/-! ## Tidy recipes -/

/-- Work that can fail is tidy, and what its result keeps is ready. -/
def Prepare.Tidy (needs : List Nat) (keeps : α → List Nat) (work : Prepare α) : Prop :=
  Build.Tidy needs (keptByResult keeps) (work : Build Desk (Except Fault α))

namespace Prepare.Tidy

variable {needs needs' : List Nat} {keeps : α → List Nat} {keeps' : β → List Nat}

/-- Work that ends at once is tidy if its result keeps only what is ready. -/
theorem pure {x : α} (hx : keeps x ⊆ needs) : Prepare.Tidy needs keeps (pure x) :=
  Build.Tidy.pure hx

/-- A fault keeps nothing. -/
theorem fault (f : Fault) : Prepare.Tidy needs keeps (throw f) :=
  Build.Tidy.pure (List.nil_subset _)

/-- More than what work needs may be ready. -/
theorem weaken {work : Prepare α} (h : Prepare.Tidy needs keeps work) (hneeds : needs ⊆ needs') :
    Prepare.Tidy needs' keeps work :=
  Build.Tidy.weaken h hneeds

/-- Tidy work can be followed by tidy work, which may need what the first has kept. -/
theorem bind {work : Prepare α} {next : α → Prepare β} (h : Prepare.Tidy needs keeps work)
    (hnext : ∀ x, Prepare.Tidy (needs ++ keeps x) keeps' (next x)) :
    Prepare.Tidy needs keeps' (work >>= next) := by
  refine @Build.Tidy.bind _ _ needs _ _ work (ExceptT.bindCont next) h fun result => ?_
  cases result with
  | ok x => exact hnext x
  | error f => exact Build.Tidy.pure (List.nil_subset _)

/-- Tidy work that cannot fail is tidy. -/
theorem lift {work : Build Desk α} (h : Build.Tidy needs keeps work) :
    Prepare.Tidy needs keeps (ExceptT.lift work) :=
  fun site hsite hready => h site hsite hready

/-- A parser made from one is tidy if it keeps what that one does. -/
theorem one {work : Prepare Parser} {make : Parser → Parser} (h : Prepare.Tidy [] Parser.kept work)
    (hmake : ∀ p, (make p).kept = p.kept) :
    Prepare.Tidy [] Parser.kept (do return make (← work)) :=
  h.bind fun p => .pure (hmake p ▸ List.Subset.refl _)

/-- A parser made from two is tidy if it keeps what those two do. -/
theorem two {work work' : Prepare Parser} {make : Parser → Parser → Parser}
    (h : Prepare.Tidy [] Parser.kept work) (h' : Prepare.Tidy [] Parser.kept work')
    (hmake : ∀ p q, (make p q).kept = p.kept ++ q.kept) :
    Prepare.Tidy [] Parser.kept (do return make (← work) (← work')) :=
  h.bind fun p => (h'.weaken (List.nil_subset _)).bind fun q =>
    .pure (hmake p q ▸ List.Subset.refl _)

/-- The build of a grammar is tidy as work that can fail. -/
theorem ofBuild {build : Build Desk (Except GrammarError Parser)}
    (h : Build.Tidy needs (keptByResult Parser.kept) build) :
    Prepare.Tidy needs Parser.kept (Prepare.ofBuild build) := by
  intro site hsite hready
  have hbuild := h site hsite hready
  unfold Prepare.ofBuild
  rcases hresult : build site with ⟨e | p, left⟩
  · rwa [hresult] at hbuild
  · rwa [hresult] at hbuild

/-- What is in a slot keeps only what is ready. -/
theorem slot (name : String) : Prepare.Tidy needs Parser.kept (Prepare.slot name) := by
  intro site hsite hready
  unfold Prepare.slot
  cases hp : site.own.slots.get? name with
  | none => exact ⟨hsite, .refl _, .nil _⟩
  | some p => exact ⟨hsite, .refl _, hsite.slots p (Slots.mem_values_of_get? hp)⟩

/-- A parser can be put aside if it keeps only what is ready. -/
theorem putAside (name : String) {p : Parser} (hp : p.kept ⊆ needs) :
    Prepare.Tidy needs (fun _ => []) (Prepare.putAside name p) := by
  refine fun site hsite hready => ⟨⟨hsite.store, fun q hq => ?_⟩, .refl _, .nil _⟩
  rcases Slots.mem_values_put hq with rfl | hq
  · exact hready.subset hp
  · exact hsite.slots q hq

/-- A builder that goes on after a fault is tidy if its work is. -/
theorem asBuilder {work : Rules → Prepare Parser} {rules : Rules}
    (h : Prepare.Tidy [] Parser.kept (work rules)) :
    Build.Tidy [] Parser.kept (Prepare.asBuilder work rules) := by
  intro site hsite hready
  have hwork := h site hsite hready
  unfold Prepare.asBuilder
  rcases hresult : work rules site with ⟨f | p, left⟩
  · rw [hresult] at hwork
    exact ⟨⟨hwork.1.store, hwork.1.slots⟩, hwork.2.1, .nil _⟩
  · rwa [hresult] at hwork

/-- A grammar of tidy builders that can meet faults is built tidily. -/
theorem grammar {ds : List (Declaration Desk)}
    (hds : ∀ rules, ∀ d ∈ ds, Build.Tidy [] Parser.kept (d.builder rules)) (start : String) :
    Prepare.Tidy [] Parser.kept (Prepare.grammar ds start) := by
  intro site hsite hready
  have hbuild := Grammar.build_tidy (fun table d hd => hds ⟨table, _, d.name⟩ d hd) start
    { site with own := { site.own with fault := none } } ⟨hsite.store, hsite.slots⟩ hready
  unfold Prepare.grammar
  dsimp only
  rcases hresult : Grammar.build ds start { site with own := { site.own with fault := none } } with
    ⟨e | p, left⟩
  · rw [hresult] at hbuild
    exact ⟨⟨hbuild.1.store, hbuild.1.slots⟩, hbuild.2.1, .nil _⟩
  · rw [hresult] at hbuild
    dsimp only
    cases left.own.fault with
    | none => exact ⟨⟨hbuild.1.store, hbuild.1.slots⟩, hbuild.2.1, hbuild.2.2⟩
    | some f => exact ⟨⟨hbuild.1.store, hbuild.1.slots⟩, hbuild.2.1, .nil _⟩

end Prepare.Tidy

namespace Recipe

/-- A parser of which nothing is kept is made tidily. -/
theorem tidy_of_nil (p : Parser) (hp : p.kept = []) :
    Prepare.Tidy [] Parser.kept (pure p : Prepare Parser) :=
  .pure (hp ▸ List.Subset.refl [])

mutual

/-- Whatever a recipe does is tidy. -/
theorem prepare_tidy (rules : Rules) : ∀ recipe : Recipe,
    Prepare.Tidy [] Parser.kept (recipe.prepare rules)
  | eof | empty | whitespace | anyLetter | anyNumber | one _ | literal _ | anyChar _ | anyCharBut _
  | handmade _ _ | current => tidy_of_nil _ rfl
  | pattern source => by
    unfold prepare
    cases Pattern.ofSource? .machine source with
    | none => exact .fault _
    | some p => exact tidy_of_nil _ rfl
  | many0 body | many1 body | exactly _ body | named _ body =>
    .one (prepare_tidy rules body) fun _ => rfl
  | orElse a b | andThen a b | thenOptional a b | optionalThen a b | thenIgnore a b
  | ignoreThen a b => .two (prepare_tidy rules a) (prepare_tidy rules b) fun _ _ => rfl
  | between inner opening closing =>
    (prepare_tidy rules inner).bind fun p =>
      ((prepare_tidy rules opening).weaken (List.nil_subset _)).bind fun q =>
        ((prepare_tidy rules closing).weaken (List.nil_subset _)).bind fun _ =>
          .pure (List.Subset.refl _)
  | ready g => .ofBuild g.build_tidy
  | grammar declared start => .grammar (declarations_tidy declared) start
  | rule name => .lift (Rules.rule_tidy rules name [])
  | escape into name =>
    (Prepare.Tidy.lift (Rules.rule_tidy rules name [])).bind fun _ =>
      (Prepare.Tidy.putAside into (List.Subset.refl _)).bind fun _ => .pure (by simp)
  | slot name => .slot name

/-- Whatever the builders for the rules of a grammar do is tidy. -/
theorem declarations_tidy : ∀ (declared : List (String × Recipe)) (rules : Rules),
    ∀ d ∈ declarations declared, Build.Tidy [] Parser.kept (d.builder rules)
  | [], _, _, hd => by cases hd
  | (name, recipe) :: rest, rules, d, hd => by
    rcases List.mem_cons.1 hd with rfl | hd
    · exact Prepare.Tidy.asBuilder (prepare_tidy rules recipe)
    · exact declarations_tidy rest rules d hd

end

end Recipe

end Descent
