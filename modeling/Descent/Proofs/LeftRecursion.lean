import Descent.Proofs.Build.Outcome
import Descent.Proofs.Taking
import Mathlib.Data.Finset.Card
import Mathlib.Logic.Relation

/-!
# Grammars without left recursion

One rule is a head of another if the other may call it before it has taken anything. Where no rule
comes back to itself through heads, the rules can be layered: the layer of a rule is the number of
rules that it reaches through heads. So the entry of a grammar whose rules only call each other ends
on every text (`Grammar.run_ends`), also where the body of a loop may succeed on nothing.
-/

namespace Descent

namespace Store

variable {s : Store} {table slot : Nat} {rules : Array Rule} {p : Parser} {a b id : RuleId}

/-- Rule `a` may call rule `b` before it has taken anything. -/
def HeadOf (s : Store) (a b : RuleId) : Prop := ∃ rule, s.rule? a = some rule ∧ s.Heads rule.body b

/-- The rules of a table only call each other, functions written by hand leave suffixes in them, and
no rule comes back to itself through heads. -/
structure WellFormed (s : Store) (table : Nat) : Prop where
  inside : ∀ rules, s.table table = .ready rules → ∀ rule ∈ rules.toList,
    rule.body.All (Inside table)
  acyclic : ∀ id, id.table = table → ¬ Relation.TransGen s.HeadOf id id

/-- A parser that stays inside a table has its heads there. -/
theorem Heads.table_eq (h : s.Heads p id) (hp : p.All (Inside table)) : id.table = table := by
  induction p with
  | many0 body ih | many1 body ih | exactly count body ih | named name body ih
  | guarded objection body ih => exact ih h hp.2
  | between inner opening closing ihInner ihOpening ihClosing =>
    obtain ⟨_, hinner, hopening, hclosing⟩ := hp
    rcases h with h | ⟨_, h | ⟨_, h⟩⟩
    · exact ihOpening h hopening
    · exact ihInner h hinner
    · exact ihClosing h hclosing
  | orElse a b iha ihb | optionalThen a b iha ihb =>
    exact h.elim (fun h => iha h hp.2.1) fun h => ihb h hp.2.2
  | andThen a b iha ihb | thenOptional a b iha ihb | thenIgnore a b iha ihb
  | ignoreThen a b iha ihb => exact h.elim (fun h => iha h hp.2.1) fun h => ihb h.2 hp.2.2
  | reference name id' | entry name id' =>
    cases h
    exact hp.2 id rfl
  | _ => exact h.elim

open Classical in
/-- The rules of a table with the given number of rules that are reached through heads from the rule
at a place. -/
noncomputable def headsBelow (s : Store) (table count slot : Nat) : Finset Nat :=
  (Finset.range count).filter fun other =>
    Relation.TransGen s.HeadOf ⟨table, slot⟩ ⟨table, other⟩

open Classical in
/-- The rules that are listed are those of the table that heads lead to in at least one step. -/
theorem mem_headsBelow {count other : Nat} : other ∈ s.headsBelow table count slot ↔
    other < count ∧ Relation.TransGen s.HeadOf ⟨table, slot⟩ ⟨table, other⟩ := by
  rw [headsBelow, Finset.mem_filter, Finset.mem_range]

/-- The layer of the rule at a place. Places without a rule are in the lowest layer, with nothing else
in it, since a rule may call a place where there is none. -/
noncomputable def headLayer (s : Store) (table count slot : Nat) : Nat :=
  if slot < count then (s.headsBelow table count slot).card + 1 else 0

/-- A table holds no more rules than all tables together. -/
theorem size_le_ruleCount (htable : s.table table = .ready rules) : rules.size ≤ s.ruleCount := by
  have hle (tables : List Table) (hmem : Table.ready rules ∈ tables) :
      rules.size ≤ tables.foldr (fun table count => tableCount table + count) 0 := by
    induction tables with
    | nil => cases hmem
    | cons head tables ih =>
      rw [List.foldr_cons]
      rcases List.mem_cons.1 hmem with rfl | hmem
      · exact Nat.le_add_right _ _
      · exact Nat.le_add_left_of_le (ih hmem)
  refine hle s.tables.toList ?_
  unfold Store.table at htable
  cases hget : s.tables[table]? with
  | none => simp [hget] at htable
  | some found =>
    rw [hget, Option.getD_some] at htable
    exact Array.mem_toList_iff.2 (htable ▸ Array.mem_of_getElem? hget)

/-- Without left recursion a head of a rule is in a lower layer than the rule. -/
theorem WellFormed.headLayer_lt (h : s.WellFormed table) (htable : s.table table = .ready rules)
    {rule : Rule} (hrule : rules[slot]? = some rule) (hid : s.Heads rule.body id) :
    s.headLayer table rules.size id.slot < s.headLayer table rules.size slot := by
  have hinside := h.inside rules htable rule (Array.mem_toList_iff.2 (Array.mem_of_getElem? hrule))
  have hslot : slot < rules.size := (Array.getElem?_eq_some_iff.1 hrule).1
  have heq : id = ⟨table, id.slot⟩ := by rw [← hid.table_eq hinside]
  have hstep : s.HeadOf ⟨table, slot⟩ ⟨table, id.slot⟩ :=
    ⟨rule, by simpa only [rule?, htable] using hrule, heq ▸ hid⟩
  unfold headLayer
  rw [if_pos hslot]
  split
  next hlt =>
    have hsubset :
        s.headsBelow table rules.size id.slot ⊂ s.headsBelow table rules.size slot := by
      refine Finset.ssubset_iff_subset_ne.2 ⟨fun other hother => ?_, fun hsame => ?_⟩
      · obtain ⟨hlt, hreach⟩ := mem_headsBelow.1 hother
        exact mem_headsBelow.2 ⟨hlt, .head hstep hreach⟩
      · have hmem : id.slot ∈ s.headsBelow table rules.size slot :=
          mem_headsBelow.2 ⟨hlt, .single hstep⟩
        -- Were the two sets the same, the head would be among its own heads.
        rw [← hsame] at hmem
        exact h.acyclic _ rfl (mem_headsBelow.1 hmem).2
    exact Nat.succ_lt_succ (Finset.card_lt_card hsubset)
  · exact Nat.succ_pos _

/-- The rules of a well-formed table are layered. -/
theorem WellFormed.layered (h : s.WellFormed table) (htable : s.table table = .ready rules) :
    s.Layered table rules (s.headLayer table rules.size) (rules.size + 2) where
  ready := htable
  inside := h.inside rules htable
  descends _ _ hrule _ := h.headLayer_lt htable hrule
  bounded slot := by
    have hsubset : s.headsBelow table rules.size slot ⊆ Finset.range rules.size :=
      fun _ hother => Finset.mem_range.2 (mem_headsBelow.1 hother).1
    have hcard := Finset.card_le_card hsubset
    rw [Finset.card_range] at hcard
    unfold headLayer
    split
    · omega
    · omega

/-- Rules that are layered are well formed: heads go down the layers, and so come back to none. -/
theorem Layered.wellFormed {rank : Nat → Nat} {layers : Nat}
    (h : s.Layered table rules rank layers) : s.WellFormed table where
  inside ready hready := by
    cases h.ready.symm.trans hready
    exact h.inside
  acyclic id hid hcycle := by
    have hdown {a b : RuleId} (hreach : Relation.TransGen s.HeadOf a b) (ha : a.table = table) :
        b.table = table ∧ rank b.slot < rank a.slot := by
      have hstep {a b : RuleId} (hhead : s.HeadOf a b) (ha : a.table = table) :
          b.table = table ∧ rank b.slot < rank a.slot := by
        obtain ⟨rule, hrule, hb⟩ := hhead
        have hslot : rules[a.slot]? = some rule := by simpa only [rule?, ha, h.ready] using hrule
        have hinside := h.inside rule (Array.mem_toList_iff.2 (Array.mem_of_getElem? hslot))
        exact ⟨hb.table_eq hinside, h.descends _ _ hslot _ hb⟩
      induction hreach with
      | single hhead => exact hstep hhead ha
      | tail _ hhead ih =>
        obtain ⟨hc, hlt⟩ := hstep hhead ih.1
        exact ⟨hc, hlt.trans ih.2⟩
    exact absurd (hdown hcycle hid).2 (Nat.lt_irrefl _)

/-- A call of a rule of a well-formed table ends on every text. Where there is no table there is
nothing to run. -/
theorem WellFormed.run_isSome (h : s.WellFormed table) (hp : p.target? = some id)
    (hid : id.table = table) (t : Text) : (s.run p t).isSome := by
  cases hrule : s.rule? id with
  | none =>
    obtain ⟨depth, hrun⟩ := run_of_target hp t
    rw [hrun]
    by_cases hdropped : s.table id.table = .dropped
    · simp [call_of_dropped hdropped]
    · simp [call_of_missing hdropped hrule]
  | some rule =>
    cases htable : s.table table with
    | forming | dropped => simp [rule?, hid, htable] at hrule
    | ready rules =>
      have hall : p.All (Inside table) := by
        have hcalls : p.CallsInto table := fun other hother => by
          cases hp.symm.trans hother
          exact hid
        cases p with
        | reference name rule | entry name rule => exact ⟨trivial, hcalls⟩
        | _ => cases hp
      have hcount := size_le_ruleCount htable
      exact (h.layered htable).run_isSome hall (by omega) t

end Store

namespace Grammar

variable {σ : Type} {declarations : List (Declaration σ)} {start : String} {site site' : Site σ}
  {p : Parser}

/-- Termination: the entry of a grammar that was built ends on every text, in every store in which
the rules of its table only call each other, functions written by hand leave suffixes, and no rule
comes back to itself before it has taken anything. -/
theorem run_ends (hbuild : build declarations start site = (.ok p, site')) {s : Store}
    (hrules : s.WellFormed site.store.tables.size) (t : Text) : (s.run p t).isSome := by
  obtain ⟨_, _, _, _, rfl, _⟩ := content_of_build hbuild
  exact hrules.run_isSome rfl rfl t

/-- Lists of letters and lists, in brackets. The body of the loop also succeeds on nothing. -/
def nested : List (Declaration σ) :=
  [⟨"list", fun r => return .between (.many0 ((← r.rule "item") ||| .empty)) (.one '(') (.one ')')⟩,
   ⟨"item", fun r => return .anyLetter ||| (← r.rule "list")⟩]

/-- A list calls items only after its bracket, so the grammar of lists ends on every text, and so it
does on one with a list in a list, though the body of the loop may take nothing. -/
theorem run_ends_nested :
    ∃ (p body : Parser) (site' : Site Unit),
      build nested "list" (.fresh .empty ()) = (.ok p, site') ∧
      site'.store.rule? ⟨0, 0⟩ =
        some ⟨"list", .between (.many0 body) (.one '(') (.one ')')⟩ ∧
      site'.store.Idle body ∧ site'.store.WellFormed 0 ∧
      (site'.store.run p (.ofList ['(', 'a', '(', ')', 'b', ')'])).isSome := by
  let body : Parser := .orElse (.reference "item" ⟨0, 1⟩) .empty
  let rules : Array Rule :=
    #[⟨"list", .between (.many0 body) (.one '(') (.one ')')⟩,
      ⟨"item", .orElse .anyLetter (.reference "list" ⟨0, 0⟩)⟩]
  let site' : Site Unit := ⟨⟨#[.ready rules]⟩, [.grammarBuilt 2 "list"], [], ()⟩
  have hbuild : build nested "list" (.fresh .empty ()) = (.ok (.entry "list" ⟨0, 0⟩), site') := rfl
  have htable : site'.store.table 0 = .ready rules := rfl
  have hinside : ∀ rule ∈ rules.toList, rule.body.All (Store.Inside 0) := by
    simp [rules, body, Parser.All, Store.Inside, Parser.Shrinking, Parser.CallsInto, Parser.target?]
  have htakes : ∀ rule ∈ rules.toList, rule.body.takes = true := by decide
  have hidle : site'.store.Idle body :=
    ⟨.ofList [], [], .ofList [], _, .of_step (show site'.store.step 3 body _ = _ from rfl), rfl⟩
  have hlower : ∀ slot rule, rules[slot]? = some rule → ∀ id ∈ rule.body.heads,
      min id.slot 1 < min slot 1 := by
    rintro (_ | _ | slot) rule hrule
    · cases Option.some.inj hrule
      simp [rules, Parser.heads, Parser.takes]
    · cases Option.some.inj hrule
      simp [rules, Parser.heads]
    · cases hrule
  have hlayered : site'.store.Layered 0 rules (min · 1) 2 :=
    .of_takes htable hinside htakes hlower fun slot => by omega
  have hrules := hlayered.wellFormed
  exact ⟨_, body, site', hbuild, rfl, hidle, hrules, run_ends hbuild hrules _⟩

end Grammar

end Descent
