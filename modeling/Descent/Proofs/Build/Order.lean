import Descent.Proofs.Build.Alike

/-!
# References mean bodies, in any order of declaration

A builder that depends on nothing but its handle makes alike bodies from alike handles. In a grammar
of such builders, a reference to a rule does what the body does that the builder of the rule returned,
and no reference to a rule of the grammar is ever without its rule. The places of the rules do not
matter for this: declared in another order, the grammar is built as well, and what is built does the
same (`Grammar.reference_means_body`).
-/

namespace Descent

namespace Store

variable {s s' : Store} {p q : Parser}

/-- No rule calls into a table that has not been made. -/
def Closed (s : Store) : Prop :=
  ∀ table rules, s.table table = .ready rules → ∀ rule ∈ rules.toList,
    rule.body.All fun q => ∀ id, q.target? = some id → id.table < s.tables.size

/-- Rules of tables that have been made stand for themselves. -/
def Itself (s : Store) (id id' : RuleId) : Prop := id = id' ∧ id.table < s.tables.size

/-- Where no rule calls into a table that has not been made, the store is like itself. -/
theorem Closed.alike (h : s.Closed) : s.Alike s.Itself s where
  inside := by
    rintro id _ ⟨rfl, hlt⟩
    exact ⟨hlt, hlt⟩
  same := by
    rintro id _ ⟨rfl, hlt⟩
    by_cases hdropped : s.table id.table = .dropped
    · exact .dropped hdropped hdropped rfl
    · cases hrule : s.rule? id with
      | none => exact .missing hdropped hdropped hrule hrule
      | some rule =>
        refine .rule hrule hrule ⟨rfl, .of_all ?_⟩
        unfold rule? at hrule
        cases htable : s.table id.table with
        | forming | dropped => simp [htable] at hrule
        | ready rules =>
          simp only [htable] at hrule
          have hmem := Array.mem_toList_iff.2 (Array.mem_of_getElem? hrule)
          exact (h _ rules htable rule hmem).imp fun q hq id hid => ⟨rfl, hq id hid⟩

/-- A later store: the given table is as it was, and the others are, or have been dropped since. -/
structure Later (s : Store) (table : Nat) (s' : Store) : Prop where
  alive : s'.table table = s.table table
  others : ∀ id < s.tables.size, s'.table id = s.table id ∨ s'.table id = .dropped

/-- In a later store the parts of a parser only call rules that stand for some, if the parser does. -/
theorem Part.alike {ρ : RuleId → RuleId → Prop} {s₁ s₁' : Store} {table : Nat} {p' : Parser}
    (hpart : s.Part p q) (halike : s₁.Alike ρ s₁') (hlater : s₁.Later table s) (hp : p.Alike ρ p') :
    ∃ q', q.Alike ρ q' := by
  induction hpart generalizing p' with
  | self p => exact ⟨p', hp⟩
  | child hc _ ih =>
    obtain ⟨c', hchild⟩ := hp.child hc
    exact ih hchild
  | @called p id rule q htarget hrule _ ih =>
    obtain ⟨id', hid⟩ := hp.target htarget
    have htable : s.table id.table = s₁.table id.table := by
      refine (hlater.others _ (halike.inside hid).1).resolve_right fun hdropped => ?_
      simp [rule?, hdropped] at hrule
    have hrule : s₁.rule? id = some rule := (rule?_congr htable).symm.trans hrule
    cases halike.same hid with
    | dropped hdropped _ _ => simp [rule?, hdropped] at hrule
    | missing _ _ hnone _ => cases hnone.symm.trans hrule
    | rule hsome _ hboth =>
      cases hsome.symm.trans hrule
      exact ih hboth.2

end Store

/-- The builder of the rule depends on nothing but its handle, and on parsers made before, in the given
store: with alike handles, it makes alike bodies. -/
def Declaration.HandleOnly {σ : Type} (s : Store) (d : Declaration σ) : Prop :=
  BuilderAlike s.Itself d.builder d.builder

namespace Grammar

variable {σ : Type} {table slot : Nat} {names : List String} {name start : String}
  {site site' : Site σ} {d : Declaration σ} {p : Parser}
  {ds ds' before after before' after' : List (Declaration σ)}

/-! ## The places of rules -/

/-- The rules stand in their table in order of declaration. -/
theorem getElem?_made (table : Nat) (names : List String) (site : Site σ)
    (before after : List (Declaration σ)) (d : Declaration σ) :
    (made table names site (before ++ d :: after))[before.length]? =
      some ⟨d.name, (turn table names (afterTurns table names site before) d).1⟩ := by
  induction before generalizing site with
  | nil => rfl
  | cons e before ih => exact ih (afterTurn table names site e)

/-- A place is that of a declaration of the name. -/
theorem exists_split (h : (ds.map (·.name)).idxOf? name = some slot) :
    ∃ before d after, ds = before ++ d :: after ∧ before.length = slot ∧ d.name = name := by
  obtain ⟨hslot, hname, _⟩ := List.idxOf?_eq_some_iff.1 h
  rw [List.length_map] at hslot
  refine ⟨ds.take slot, ds[slot], ds.drop (slot + 1), ?_, ?_, ?_⟩
  · rw [← List.drop_eq_getElem_cons hslot, List.take_append_drop]
  · rw [List.length_take, Nat.min_eq_left hslot.le]
  · simpa using hname

/-- Among different names, that of a declaration has the place of the declaration. -/
theorem idxOf?_split (hds : ds = before ++ d :: after) (hnames : (ds.map (·.name)).Nodup) :
    (ds.map (·.name)).idxOf? d.name = some before.length := by
  subst hds
  induction before with
  | nil => simp [List.idxOf?_cons]
  | cons e before ih =>
    obtain ⟨he, hrest⟩ := List.nodup_cons.1 hnames
    have hne : e.name ≠ d.name := fun heq => he (by simp [heq])
    rw [List.cons_append, List.map_cons, List.idxOf?_cons, ih hrest]
    simp [hne]

/-! ## One build -/

/-- What the builders of the first rules of a grammar leave. -/
def leftBy (site : Site σ) (ds before : List (Declaration σ)) : Site σ :=
  afterTurns site.store.allocate.1 (ds.map (·.name)) (opened site) before

/-- What the builder of a rule returns and leaves in the build of a grammar, after the builders of the
rules before it. -/
def turnIn (site : Site σ) (ds before : List (Declaration σ)) (d : Declaration σ) :
    Parser × Site σ :=
  turn site.store.allocate.1 (ds.map (·.name)) (leftBy site ds before) d

/-- Which rules stand for each other while a grammar is built in two orders: those that were there
stand for themselves, and rules of the grammar for those of the same name. -/
abbrev ByName (site : Site σ) (ds ds' : List (Declaration σ)) : RuleId → RuleId → Prop :=
  Store.Opened site.store.Itself site.store.allocate.1 site.store.allocate.1 (ds.map (·.name))
    (ds'.map (·.name))

section

variable (hclosed : site.store.Closed)

include hclosed

/-- The turns of a builder that depends on nothing but its handle, in two orders. -/
theorem turn_handleOnly (hd : d.HandleOnly site.store)
    (hnames : ∀ name, name ∈ ds.map (·.name) ↔ name ∈ ds'.map (·.name)) {left left' : Site σ}
    (hleft : (opened site).store.Extends left.store)
    (hleft' : (opened site).store.Extends left'.store) :
    ∃ ρ, Store.Growth (ByName site ds ds') ρ left.store left'.store
        (turn site.store.allocate.1 (ds.map (·.name)) left d).2.store
        (turn site.store.allocate.1 (ds'.map (·.name)) left' d).2.store ∧
      (turn site.store.allocate.1 (ds.map (·.name)) left d).1.Alike ρ
        (turn site.store.allocate.1 (ds'.map (·.name)) left' d).1 ∧
      (turn site.store.allocate.1 (ds.map (·.name)) left d).2.missing =
        (turn site.store.allocate.1 (ds'.map (·.name)) left' d).2.missing := by
  have hd : BuilderAlike (ByName site ds ds') d.builder d.builder :=
    fun ρ r r' hρ => hd ρ r r' (le_trans (fun _ _ => .inl) hρ)
  exact turn_alike rfl hd (rules_alike hnames)
    ((hclosed.alike.allocate _ _).extend hleft hleft')

/-- Builders that depend on nothing but their handles only add tables, one after the other. -/
theorem afterTurns_extends (ds : List (Declaration σ)) {ran : List (Declaration σ)}
    (hran : ∀ d ∈ ran, d.HandleOnly site.store) {left : Site σ}
    (hleft : (opened site).store.Extends left.store) : left.store.Extends
      (afterTurns site.store.allocate.1 (ds.map (·.name)) left ran).store := by
  induction ran generalizing left with
  | nil => exact .refl _
  | cons d ran ih =>
    have hnames (name : String) : name ∈ ds.map (·.name) ↔ name ∈ ds.map (·.name) := .rfl
    obtain ⟨_, hgrowth, _⟩ :=
      turn_handleOnly hclosed (hran d List.mem_cons_self) hnames hleft hleft
    have hturn : left.store.Extends
      (afterTurn site.store.allocate.1 (ds.map (·.name)) left d).store := hgrowth.left
    have hrest := ih (fun e he => hran e (List.mem_cons_of_mem d he)) (hleft.trans hturn)
    exact hturn.trans hrest

variable (hds : ∀ d ∈ ds, d.HandleOnly site.store)

include hds

/-- The table of the grammar is there while the builders run. -/
theorem opened_extends_leftBy (hsplit : ds = before ++ after) :
    (opened site).store.Extends (leftBy site ds before).store := by
  refine afterTurns_extends hclosed ds (fun e he => hds e ?_) (.refl _)
  exact hsplit ▸ List.mem_append_left after he

/-- What a builder leaves is still there at the end. -/
theorem turnIn_extends (hsplit : ds = before ++ d :: after) :
    (turnIn site ds before d).2.store.Extends (leftBy site ds ds).store := by
  have hsplit : ds = (before ++ [d]) ++ after := by simp [hsplit]
  have hafter : ∀ e ∈ after, e.HandleOnly site.store :=
    fun e he => hds e (hsplit ▸ List.mem_append_right (before ++ [d]) he)
  have hrest := afterTurns_extends hclosed ds hafter
    (opened_extends_leftBy hclosed hds hsplit)
  have hturns : afterTurns site.store.allocate.1 (ds.map (·.name))
      (leftBy site ds (before ++ [d])) after = leftBy site ds ds := by
    rw [leftBy, ← afterTurns_append, ← hsplit, leftBy]
  rw [hturns, leftBy, afterTurns_append] at hrest
  exact hrest

/-- The rule at a place of the table of a grammar that was built. -/
theorem rule?_finished (start : String) (slot : Nat) :
    (finished site ds start).store.rule? ⟨site.store.allocate.1, slot⟩ =
      (made site.store.allocate.1 (ds.map (·.name)) (opened site) ds)[slot]? := by
  have hextends := opened_extends_leftBy hclosed hds (List.append_nil ds).symm
  have htable : (finished site ds start).store.table site.store.allocate.1 = .ready
      (made site.store.allocate.1 (ds.map (·.name)) (opened site) ds).toArray :=
    Store.table_put_self hextends.size_lt
  simp only [Store.rule?, htable, List.getElem?_toArray]

/-- The rule at a place is what its builder has returned. -/
theorem rule?_split (start : String) (hsplit : ds = before ++ d :: after) :
    (finished site ds start).store.rule? ⟨site.store.allocate.1, before.length⟩ =
      some ⟨d.name, (turnIn site ds before d).1⟩ := by
  have hmade := getElem?_made site.store.allocate.1 (ds.map (·.name)) (opened site) before after d
  rw [← hsplit] at hmade
  exact (rule?_finished hclosed hds start before.length).trans hmade

end

/-- The tables but that of the grammar are those that the builders have left. -/
theorem table_finished {other : Nat} (hother : other ≠ site.store.allocate.1) (start : String) :
    (finished site ds start).store.table other = (leftBy site ds ds).store.table other :=
  Store.table_put_of_ne hother

/-! ## Two builds -/

/-- Which rules stand for each other after two builds: those that do by their names, and those that
do after the two turns of one builder. -/
inductive Matched (site : Site σ) (ds ds' : List (Declaration σ)) (id id' : RuleId) : Prop
  | byName (hid : ByName site ds ds' id id')
  | turn {before d after before' after' ρ} (hsplit : ds = before ++ d :: after)
    (hsplit' : ds' = before' ++ d :: after')
    (hgrowth : Store.Growth (ByName site ds ds') ρ (leftBy site ds before).store
      (leftBy site ds' before').store (turnIn site ds before d).2.store
      (turnIn site ds' before' d).2.store) (hid : ρ id id')

section

variable (hclosed : site.store.Closed) (hds : ∀ d ∈ ds, d.HandleOnly site.store)
  (hperm : ds'.Perm ds)

include hclosed hds hperm

/-- A builder makes alike bodies in its two turns, and asks for the same in vain. -/
theorem turnIn_matched (hsplit : ds = before ++ d :: after)
    (hsplit' : ds' = before' ++ d :: after') :
    (turnIn site ds before d).1.Alike (Matched site ds ds') (turnIn site ds' before' d).1 ∧
      (turnIn site ds before d).2.missing = (turnIn site ds' before' d).2.missing := by
  have hnames (name : String) : name ∈ ds.map (·.name) ↔ name ∈ ds'.map (·.name) :=
    (hperm.map _).mem_iff.symm
  have hds' : ∀ d ∈ ds', d.HandleOnly site.store := fun d hd => hds d (hperm.mem_iff.1 hd)
  obtain ⟨ρ, hgrowth, hbody, hmissing⟩ := turn_handleOnly hclosed (hds d (by simp [hsplit])) hnames
    (opened_extends_leftBy hclosed hds hsplit) (opened_extends_leftBy hclosed hds' hsplit')
  exact ⟨hbody.mono fun _ _ hid => .turn hsplit hsplit' hgrowth hid, hmissing⟩

/-- If all builders are content in one order, they are in the other. -/
theorem content_of_perm
    (hall : Content site.store.allocate.1 (ds.map (·.name)) (opened site) ds) :
    Content site.store.allocate.1 (ds'.map (·.name)) (opened site) ds' := by
  intro before' d after' hsplit'
  have hmem : d ∈ ds := hperm.mem_iff.1 (by simp [hsplit'])
  obtain ⟨before, after, hsplit⟩ := List.append_of_mem hmem
  have hmissing := (turnIn_matched hclosed hds hperm hsplit hsplit').2
  exact hmissing.symm.trans (hall before d after hsplit)

/-- Rules that stand for each other by their names are alike in the end. -/
theorem sameRule_of_byName (hnames : (ds.map (·.name)).Nodup) {id id' : RuleId}
    (hid : ByName site ds ds' id id') : (finished site ds start).store.SameRule
      (Matched site ds ds') (finished site ds' start).store id id' := by
  have hds' : ∀ d ∈ ds', d.HandleOnly site.store := fun d hd => hds d (hperm.mem_iff.1 hd)
  rcases hid with ⟨rfl, hlt⟩ | ⟨htable, htable', name, hslot, hslot'⟩
  · have htable (ds : List (Declaration σ)) (hds : ∀ d ∈ ds, d.HandleOnly site.store) :
        (finished site ds start).store.table id.table = site.store.table id.table := by
      have hleft := (Store.Extends.allocate site.store).trans
        (opened_extends_leftBy hclosed hds (List.append_nil ds).symm)
      rw [table_finished hlt.ne, hleft.table_eq _ hlt]
    exact (hclosed.alike.same ⟨rfl, hlt⟩).congr (fun _ _ hid => .byName (.inl hid)) (htable ds hds)
      (htable ds' hds')
  · obtain ⟨before, d, after, hsplit, hlength, hname⟩ := exists_split hslot
    obtain ⟨before', d', after', hsplit', hlength', hname'⟩ := exists_split hslot'
    have hmem : d ∈ ds := by simp [hsplit]
    have hmem' : d' ∈ ds := hperm.mem_iff.1 (by simp [hsplit'])
    obtain rfl := List.inj_on_of_nodup_map hnames hmem hmem' (hname.trans hname'.symm)
    have hrule := rule?_split hclosed hds start hsplit
    have hrule' := rule?_split hclosed hds' start hsplit'
    rw [hlength, ← htable] at hrule
    rw [hlength', ← htable'] at hrule'
    exact .rule hrule hrule' ⟨rfl, (turnIn_matched hclosed hds hperm hsplit hsplit').1⟩

/-- The stores that the two builds leave are alike. -/
theorem finished_alike (hnames : (ds.map (·.name)).Nodup) (start : String) :
    (finished site ds start).store.Alike (Matched site ds ds') (finished site ds' start).store := by
  have hds' : ∀ d ∈ ds', d.HandleOnly site.store := fun d hd => hds d (hperm.mem_iff.1 hd)
  have hleft := opened_extends_leftBy hclosed hds (List.append_nil ds).symm
  have hleft' := opened_extends_leftBy hclosed hds' (List.append_nil ds').symm
  have hsize : (finished site ds start).store.tables.size = (leftBy site ds ds).store.tables.size :=
    Store.size_put ..
  have hsize' : (finished site ds' start).store.tables.size =
      (leftBy site ds' ds').store.tables.size := Store.size_put ..
  constructor
  · intro id id' hid
    rw [hsize, hsize']
    cases hid with
    | byName hid => exact ((hclosed.alike.allocate _ _).extend hleft hleft').inside hid
    | turn hsplit hsplit' hgrowth hid =>
      obtain ⟨hlt, hlt'⟩ := hgrowth.alike.inside hid
      exact ⟨hlt.trans_le (turnIn_extends hclosed hds hsplit).size_le,
        hlt'.trans_le (turnIn_extends hclosed hds' hsplit').size_le⟩
  · intro id id' hid
    cases hid with
    | byName hid => exact sameRule_of_byName hclosed hds hperm hnames hid
    | turn hsplit hsplit' hgrowth hid =>
      rcases hgrowth.new id id' hid with hold | ⟨hle, hle'⟩
      · exact sameRule_of_byName hclosed hds hperm hnames hold
      · have hne := ((opened_extends_leftBy hclosed hds hsplit).size_lt.trans_le hle).ne'
        have hne' := ((opened_extends_leftBy hclosed hds' hsplit').size_lt.trans_le hle').ne'
        obtain ⟨hlt, hlt'⟩ := hgrowth.alike.inside hid
        refine (hgrowth.alike.same hid).congr (fun _ _ => .turn hsplit hsplit' hgrowth) ?_ ?_
        · rw [table_finished hne, (turnIn_extends hclosed hds hsplit).table_eq _ hlt]
        · rw [table_finished hne', (turnIn_extends hclosed hds' hsplit').table_eq _ hlt']

end

/-- Rules of the grammar that stand for others are there. -/
theorem rule?_isSome_of_matched (hclosed : site.store.Closed)
    (hds : ∀ d ∈ ds, d.HandleOnly site.store) {id id' : RuleId} (hid : Matched site ds ds' id id')
    (htable : id.table = site.store.allocate.1) (start : String) :
    ((finished site ds start).store.rule? id).isSome := by
  have hnamed (hid : ByName site ds ds' id id') :
      ((finished site ds start).store.rule? id).isSome := by
    rcases hid with ⟨_, hlt⟩ | ⟨_, _, name, hslot, _⟩
    · exact absurd htable hlt.ne
    · obtain ⟨before, d, after, hsplit, hlength, _⟩ := exists_split hslot
      have hrule := rule?_split hclosed hds start hsplit
      rw [hlength, ← htable] at hrule
      rw [hrule]
      rfl
  cases hid with
  | byName hid => exact hnamed hid
  | turn hsplit hsplit' hgrowth hid =>
    rcases hgrowth.new id id' hid with hold | ⟨hle, _⟩
    · exact hnamed hold
    · have hlt := (opened_extends_leftBy hclosed hds hsplit).size_lt
      exact absurd htable (hlt.trans_le hle).ne'

/-! ## What references mean -/

/-- The handle on the rules of a grammar that is given to the builder of one of them. -/
def handle (site : Site σ) (ds : List (Declaration σ)) (current : String) : Rules :=
  ⟨site.store.allocate.1, ds.map (·.name), current⟩

/-- A reference leads to the place of the rule. -/
theorem target?_rule {current : String} (hslot : (ds.map (·.name)).idxOf? name = some slot)
    (asked : Site σ) : ((handle site ds current).rule name asked).1.target? =
      some ⟨site.store.allocate.1, slot⟩ := by
  simp [Rules.rule, handle, hslot, Parser.target?]

/-- In a grammar that was built, as long as its table is there, a reference to a rule does what the
body does that the rule's builder returned, between two events; the entry does what a reference to
the start rule does; and whatever part of the entry refers to a rule of the grammar, the rule is
there. With the rules in any other order the grammar is built as well, with the same name, and does
the same. -/
theorem reference_means_body (hclosed : site.store.Closed)
    (hds : ∀ d ∈ ds, d.HandleOnly site.store) (hbuild : build ds start site = (.ok p, site')) :
    (∀ s, site'.store.Later site.store.allocate.1 s →
      (∀ before d after, ds = before ++ d :: after → ∀ current (asked : Site σ) t r,
        s.Runs ((handle site ds current).rule d.name asked).1 t r ↔
          ∃ o l, s.Runs (turnIn site ds before d).1 t ⟨o, l⟩ ∧
            r = ⟨o, .enterRule d.name t.size :: l ++ [.exitRule d.name o.ok (o.consumed t)]⟩) ∧
      (∀ current (asked : Site σ) t r,
        s.Runs p t r ↔ s.Runs ((handle site ds current).rule start asked).1 t r) ∧
      ∀ q id, s.Part p q → q.target? = some id → id.table = site.store.allocate.1 →
        (s.rule? id).isSome) ∧
    ∀ ds', ds'.Perm ds → ∃ p' left, build ds' start site = (.ok p', left) ∧ p'.name = p.name ∧
      ∀ t r, left.store.Runs p' t r ↔ site'.store.Runs p t r := by
  obtain ⟨slot, hnames, hslot, hall, rfl, rfl⟩ := content_of_build hbuild
  refine ⟨fun s hlater => ⟨?_, ?_, ?_⟩, ?_⟩
  · -- A reference to a rule: in a later store the table of the grammar is as it was built.
    intro before d after hsplit current asked t r
    have hrule : s.rule? ⟨site.store.allocate.1, before.length⟩ =
        some ⟨d.name, (turnIn site ds before d).1⟩ :=
      (Store.rule?_congr hlater.alive).trans (rule?_split hclosed hds start hsplit)
    exact Store.runs_target_iff (target?_rule (idxOf?_split hsplit hnames) asked) hrule
  · intro current asked t r
    exact Store.runs_congr_target rfl (target?_rule hslot asked)
  · -- The parts of the entry: in the same order the store is like itself, and matched rules are there.
    intro q id hpart htarget htable
    have halike := finished_alike hclosed hds (.refl ds) hnames start
    have hstart : Matched site ds ds ⟨site.store.allocate.1, slot⟩ ⟨site.store.allocate.1, slot⟩ :=
      .byName (.inr ⟨rfl, rfl, start, hslot, hslot⟩)
    obtain ⟨q', hq⟩ := hpart.alike halike hlater (.entry start hstart)
    obtain ⟨id', hid⟩ := hq.target htarget
    rw [Store.rule?_congr (htable ▸ hlater.alive)]
    exact rule?_isSome_of_matched hclosed hds hid htable start
  · -- Another order: the two stores are alike, and so are the two entries.
    intro ds' hperm
    have hnames' : (ds'.map (·.name)).Nodup := (hperm.map _).nodup_iff.2 hnames
    have hstart : start ∈ ds'.map (·.name) :=
      (hperm.map _).mem_iff.2 (List.isSome_idxOf?.1 (by rw [hslot]; rfl))
    obtain ⟨slot', hslot'⟩ := Option.isSome_iff_exists.1 (List.isSome_idxOf?.2 hstart)
    have hall' := content_of_perm hclosed hds hperm hall
    refine ⟨_, _, build_of_content hnames' hslot' hall', rfl, fun t r => ?_⟩
    have hentry : Matched site ds ds' ⟨site.store.allocate.1, slot⟩
        ⟨site.store.allocate.1, slot'⟩ := .byName (.inr ⟨rfl, rfl, start, hslot, hslot'⟩)
    exact ((finished_alike hclosed hds hperm hnames start).runs_iff (.entry start hentry)).symm

/-- Words of letters. -/
def words : List (Declaration σ) :=
  [⟨"letters", fun r => return .many1 (← r.rule "letter")⟩, ⟨"letter", fun _ => return .anyLetter⟩]

/-- Groups of words and groups, in brackets. A grammar inside reads the words. -/
def groups : List (Declaration σ) :=
  [⟨"group", fun r => return .between (.many0 (← r.rule "item")) (.one '(') (.one ')')⟩,
   ⟨"item", fun r => return (← r.rule "word") ||| (← r.rule "group")⟩,
   ⟨"word", fun _ => do
     match ← build words "letters" with
     | .ok p => return p
     | .error _ => return .empty⟩]

/-- The builders for words depend on nothing but their handles. -/
theorem handleOnly_words (s : Store) : ∀ d ∈ (words : List (Declaration σ)), d.HandleOnly s := by
  simp only [words, List.forall_mem_cons]
  refine ⟨fun ρ r r' _ hr => ?_, fun ρ r r' _ _ => .pure (.direct rfl), by simp⟩
  exact (hr.rule "letter").bind fun _ _ _ _ hletter => .pure (.many1 hletter)

/-- The builders for groups, items and words depend on nothing but their handles. -/
theorem handleOnly_groups (s : Store) : ∀ d ∈ (groups : List (Declaration σ)), d.HandleOnly s := by
  simp only [groups, List.forall_mem_cons]
  refine ⟨fun ρ r r' _ hr => ?_, fun ρ r r' _ hr => ?_, fun ρ r r' hρ _ => ?_, by simp⟩
  · exact (hr.rule "item").bind fun _ _ _ _ hitem =>
      .pure (.between (.many0 hitem) (.direct rfl) (.direct rfl))
  · refine (hr.rule "word").bind fun _ _ _ hρ hword => ?_
    refine ((hr.mono hρ).rule "group").bind fun _ _ _ hρ hgroup => ?_
    exact .pure (.orElse (hword.mono hρ) hgroup)
  · have hwords : Build.Alike (ResultAlike Parser.Alike) ρ
        (build (words : List (Declaration σ)) "letters") (build words "letters") :=
      build_alike (List.forall₂_same.2 fun d hd => ⟨rfl, fun ρ' r r' hρ' =>
        handleOnly_words s d hd ρ' r r' (hρ.trans hρ')⟩) "letters"
    refine hwords.bind fun ρ' x x' _ hx => ?_
    rcases x with e | p
    · rcases x' with e' | p'
      · exact .pure (.direct rfl)
      · exact hx.elim
    · rcases x' with e' | p'
      · exact hx.elim
      · exact .pure hx

/-- The grammar of groups is built in the order of declaration, and in the opposite order, with the
same runs. -/
theorem reference_means_body_groups : ∃ (p : Parser) (site' : Site Unit),
    Store.empty.Closed ∧ (∀ d ∈ (groups : List (Declaration Unit)), d.HandleOnly .empty) ∧
      build groups "group" (.fresh .empty ()) = (.ok p, site') ∧
      ∃ p' left, build groups.reverse "group" (.fresh .empty ()) = (.ok p', left) ∧
        p'.name = p.name ∧ ∀ t r, left.store.Runs p' t r ↔ site'.store.Runs p t r := by
  have hclosed : (Site.fresh .empty () : Site Unit).store.Closed := fun table rules htable => by
    simp [Site.fresh, Store.table, Store.empty] at htable
  have hds : ∀ d ∈ (groups : List (Declaration Unit)), d.HandleOnly .empty :=
    handleOnly_groups .empty
  have hok : (build (groups : List (Declaration Unit)) "group" (.fresh .empty ())).1.isOk = true :=
    by decide +kernel
  rcases hbuild : build (groups : List (Declaration Unit)) "group" (.fresh .empty ())
    with ⟨e | p, site'⟩
  · rw [hbuild] at hok
    cases hok
  · obtain ⟨_, hperm⟩ := reference_means_body hclosed hds hbuild
    exact ⟨p, site', hclosed, hds, rfl, hperm groups.reverse groups.reverse_perm⟩

end Grammar

end Descent
