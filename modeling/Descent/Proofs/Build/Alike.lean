import Descent.Proofs.Build.Outcome
import Descent.Proofs.Part
import Descent.Proofs.Tables
import Mathlib.Data.List.Forall2
import Mathlib.Order.Lattice

/-!
# Alike parsers in alike stores

Rules have numbers that depend on the order in which grammars and rules are made, and nobody should
notice. Here a relation `ρ` says which rule of one store stands for which rule of another. Parsers are
alike if they differ in nothing but such rules, and stores if such rules have alike bodies; then the
parsers do the same at every depth (`Store.Alike.step_eq`). Work is alike if from alike stores it
comes to alike stores, where new rules stand for new rules. So is the build of a grammar if its
builders are (`Grammar.build_alike`).
-/

namespace Descent

variable {ρ ρ' ρ'' : RuleId → RuleId → Prop}

namespace Parser

/-- Two parsers differ only in the rules that they call, and these stand for each other. -/
inductive Alike (ρ : RuleId → RuleId → Prop) : Parser → Parser → Prop
  | direct {p f} (hp : p.direct? = some f) : Alike ρ p p
  | many0 {body body'} (hbody : Alike ρ body body') : Alike ρ (.many0 body) (.many0 body')
  | many1 {body body'} (hbody : Alike ρ body body') : Alike ρ (.many1 body) (.many1 body')
  | exactly {body body'} (count : Nat) (hbody : Alike ρ body body') :
    Alike ρ (.exactly count body) (.exactly count body')
  | between {inner inner' opening opening' closing closing'} (hinner : Alike ρ inner inner')
    (hopening : Alike ρ opening opening') (hclosing : Alike ρ closing closing') :
    Alike ρ (.between inner opening closing) (.between inner' opening' closing')
  | orElse {a a' b b'} (ha : Alike ρ a a') (hb : Alike ρ b b') :
    Alike ρ (.orElse a b) (.orElse a' b')
  | andThen {a a' b b'} (ha : Alike ρ a a') (hb : Alike ρ b b') :
    Alike ρ (.andThen a b) (.andThen a' b')
  | thenOptional {a a' b b'} (ha : Alike ρ a a') (hb : Alike ρ b b') :
    Alike ρ (.thenOptional a b) (.thenOptional a' b')
  | optionalThen {a a' b b'} (ha : Alike ρ a a') (hb : Alike ρ b b') :
    Alike ρ (.optionalThen a b) (.optionalThen a' b')
  | thenIgnore {a a' b b'} (ha : Alike ρ a a') (hb : Alike ρ b b') :
    Alike ρ (.thenIgnore a b) (.thenIgnore a' b')
  | ignoreThen {a a' b b'} (ha : Alike ρ a a') (hb : Alike ρ b b') :
    Alike ρ (.ignoreThen a b) (.ignoreThen a' b')
  | named {body body'} (name : String) (hbody : Alike ρ body body') :
    Alike ρ (.named name body) (.named name body')
  | guarded {body body'} (objection : Text → Option Event) (hbody : Alike ρ body body') :
    Alike ρ (.guarded objection body) (.guarded objection body')
  | reference {id id'} (name : String) (hid : ρ id id') :
    Alike ρ (.reference name id) (.reference name id')
  | entry {id id'} (name : String) (hid : ρ id id') : Alike ρ (.entry name id) (.entry name id')

variable {p p' : Parser} {limit : Nat} {id : RuleId}

namespace Alike

/-- Parsers stay alike when more rules stand for each other. -/
theorem mono (hρ : ρ ≤ ρ') (h : p.Alike ρ p') : p.Alike ρ' p' := by
  induction h with
  | direct hp => exact .direct hp
  | many0 _ ih => exact .many0 ih
  | many1 _ ih => exact .many1 ih
  | exactly count _ ih => exact .exactly count ih
  | between _ _ _ ihInner ihOpening ihClosing => exact .between ihInner ihOpening ihClosing
  | orElse _ _ iha ihb => exact .orElse iha ihb
  | andThen _ _ iha ihb => exact .andThen iha ihb
  | thenOptional _ _ iha ihb => exact .thenOptional iha ihb
  | optionalThen _ _ iha ihb => exact .optionalThen iha ihb
  | thenIgnore _ _ iha ihb => exact .thenIgnore iha ihb
  | ignoreThen _ _ iha ihb => exact .ignoreThen iha ihb
  | named name _ ih => exact .named name ih
  | guarded objection _ ih => exact .guarded objection ih
  | reference name hid => exact .reference name (hρ _ _ hid)
  | entry name hid => exact .entry name (hρ _ _ hid)

/-- Parsers that are alike mean the same if calls of the rules that stand for each other do. -/
theorem meaning_eq {call call' : RuleId → Step} (hcall : ∀ id id', ρ id id' → call id = call' id')
    (h : p.Alike ρ p') : p.meaning limit call = p'.meaning limit call' := by
  induction h with
  | @direct p f hp => cases p <;> first | rfl | cases hp
  | many0 _ ih => exact congrArg (Step.many0 limit) ih
  | many1 _ ih => exact congrArg (Step.many1 limit) ih
  | exactly count _ ih => exact congrArg (Step.exactly count) ih
  | between _ _ _ ihInner ihOpening ihClosing =>
    change Step.between _ _ _ = Step.between _ _ _
    rw [ihInner, ihOpening, ihClosing]
  | orElse _ _ iha ihb => exact congrArg₂ Step.orElse iha ihb
  | andThen _ _ iha ihb => exact congrArg₂ (Step.sequence _) iha ihb
  | thenOptional _ _ iha ihb => exact congrArg₂ Step.thenOptional iha ihb
  | optionalThen _ _ iha ihb => exact congrArg₂ Step.optionalThen iha ihb
  | thenIgnore _ _ iha ihb => exact congrArg₂ (Step.sequence _) iha ihb
  | ignoreThen _ _ iha ihb => exact congrArg₂ (Step.sequence _) iha ihb
  | named name _ ih => exact ih
  | guarded objection _ ih => exact congrArg (Step.guarded objection) ih
  | reference name hid => exact hcall _ _ hid
  | entry name hid => exact hcall _ _ hid

/-- A parser is like itself if every rule that it calls stands for itself. -/
theorem of_all (h : p.All fun q => ∀ id, q.target? = some id → ρ id id) : p.Alike ρ p := by
  induction p with
  | many0 body ih => exact .many0 (ih h.2)
  | many1 body ih => exact .many1 (ih h.2)
  | exactly count body ih => exact .exactly count (ih h.2)
  | between inner opening closing ihInner ihOpening ihClosing =>
    exact .between (ihInner h.2.1) (ihOpening h.2.2.1) (ihClosing h.2.2.2)
  | orElse a b iha ihb => exact .orElse (iha h.2.1) (ihb h.2.2)
  | andThen a b iha ihb => exact .andThen (iha h.2.1) (ihb h.2.2)
  | thenOptional a b iha ihb => exact .thenOptional (iha h.2.1) (ihb h.2.2)
  | optionalThen a b iha ihb => exact .optionalThen (iha h.2.1) (ihb h.2.2)
  | thenIgnore a b iha ihb => exact .thenIgnore (iha h.2.1) (ihb h.2.2)
  | ignoreThen a b iha ihb => exact .ignoreThen (iha h.2.1) (ihb h.2.2)
  | named name body ih => exact .named name (ih h.2)
  | guarded objection body ih => exact .guarded objection (ih h.2)
  | reference name id => exact .reference name (h id rfl)
  | entry name id => exact .entry name (h id rfl)
  | _ => exact .direct rfl

/-- What a parser was put together from has something that it is like. -/
theorem child (h : p.Alike ρ p') {c : Parser} (hc : c ∈ p.children) : ∃ c', c.Alike ρ c' := by
  cases h with
  | many0 h | many1 h | exactly _ h | named _ h | guarded _ h =>
    cases List.mem_singleton.1 hc
    exact ⟨_, h⟩
  | between hinner hopening hclosing =>
    simp only [children, List.mem_cons, List.not_mem_nil, or_false] at hc
    rcases hc with rfl | rfl | rfl
    · exact ⟨_, hinner⟩
    · exact ⟨_, hopening⟩
    · exact ⟨_, hclosing⟩
  | orElse ha hb | andThen ha hb | thenOptional ha hb | optionalThen ha hb | thenIgnore ha hb
  | ignoreThen ha hb =>
    simp only [children, List.mem_cons, List.not_mem_nil, or_false] at hc
    rcases hc with rfl | rfl
    · exact ⟨_, ha⟩
    · exact ⟨_, hb⟩
  | direct hp =>
    rw [children_of_direct hp] at hc
    cases hc
  | reference | entry => cases hc

/-- A rule that a parser calls stands for one. -/
theorem target (h : p.Alike ρ p') (hp : p.target? = some id) : ∃ id', ρ id id' := by
  cases h with
  | direct hdirect =>
    rw [target?_of_direct hdirect] at hp
    cases hp
  | reference _ hid | entry _ hid =>
    cases hp
    exact ⟨_, hid⟩
  | _ => cases hp

end Alike

end Parser

/-- Two rules have the same name and alike bodies. -/
def Rule.Alike (ρ : RuleId → RuleId → Prop) (rule rule' : Rule) : Prop :=
  rule.name = rule'.name ∧ rule.body.Alike ρ rule'.body

namespace Store

variable {s s' s₁ s₁' s₂ s₂' : Store} {p p' : Parser} {id id' : RuleId} {depth : Nat}

/-- A rule is looked up in its table alone. -/
theorem rule?_congr (h : s'.table id.table = s.table id.table) : s'.rule? id = s.rule? id := by
  simp only [rule?, h]

/-- Calls of two rules, each in its store, come to the same: both fail in the same way, or the rules
are alike. -/
inductive SameRule (ρ : RuleId → RuleId → Prop) (s s' : Store) (id id' : RuleId) : Prop
  | dropped (hid : s.table id.table = .dropped) (hid' : s'.table id'.table = .dropped)
    (hslot : id.slot = id'.slot)
  | missing (hid : s.table id.table ≠ .dropped) (hid' : s'.table id'.table ≠ .dropped)
    (hrule : s.rule? id = none) (hrule' : s'.rule? id' = none)
  | rule {rule rule'} (hrule : s.rule? id = some rule) (hrule' : s'.rule? id' = some rule')
    (halike : rule.Alike ρ rule')

/-- Whether calls of two rules come to the same depends only on their two tables, and remains so
when more rules stand for each other. -/
theorem SameRule.congr (h : s₁.SameRule ρ s₁' id id') (hρ : ρ ≤ ρ')
    (hid : s₂.table id.table = s₁.table id.table)
    (hid' : s₂'.table id'.table = s₁'.table id'.table) : s₂.SameRule ρ' s₂' id id' := by
  cases h with
  | dropped hdropped hdropped' hslot =>
    exact .dropped (hid.trans hdropped) (hid'.trans hdropped') hslot
  | missing hne hne' hrule hrule' =>
    exact .missing (hid ▸ hne) (hid' ▸ hne') ((rule?_congr hid).trans hrule)
      ((rule?_congr hid').trans hrule')
  | rule hrule hrule' halike =>
    exact .rule ((rule?_congr hid).trans hrule) ((rule?_congr hid').trans hrule')
      ⟨halike.1, halike.2.mono hρ⟩

/-- Two stores have the rules that stand for each other, and calls of these come to the same. -/
structure Alike (ρ : RuleId → RuleId → Prop) (s s' : Store) : Prop where
  inside : ∀ {id id'}, ρ id id' → id.table < s.tables.size ∧ id'.table < s'.tables.size
  same : ∀ {id id'}, ρ id id' → s.SameRule ρ s' id id'

/-- Alike parsers in alike stores do the same at every depth. -/
theorem Alike.step_eq (h : s.Alike ρ s') (hp : p.Alike ρ p') :
    s.step depth p = s'.step depth p' := by
  induction depth generalizing p p' with
  | zero => exact hp.meaning_eq fun _ _ _ => rfl
  | succ depth ih =>
    refine hp.meaning_eq fun id id' hid => ?_
    funext t
    cases h.same hid with
    | dropped hdropped hdropped' hslot =>
      rw [call_of_dropped hdropped, call_of_dropped hdropped', hslot]
    | missing hne hne' hrule hrule' =>
      rw [call_of_missing hne hrule, call_of_missing hne' hrule']
    | rule hrule hrule' halike =>
      rw [call_of_rule hrule, call_of_rule hrule', halike.1, ih halike.2]

/-- Alike parsers in alike stores have the same runs. -/
theorem Alike.runs_iff {t : Text} {r : Run} (h : s.Alike ρ s') (hp : p.Alike ρ p') :
    s.Runs p t r ↔ s'.Runs p' t r := by
  simp only [Store.runs_iff, h.step_eq hp]

/-- Stores that are alike stay so when they are extended. -/
theorem Alike.extend (h : s₁.Alike ρ s₁') (hs : s₁.Extends s₂) (hs' : s₁'.Extends s₂') :
    s₂.Alike ρ s₂' where
  inside hid := ⟨(h.inside hid).1.trans_le hs.size_le, (h.inside hid).2.trans_le hs'.size_le⟩
  same hid := (h.same hid).congr le_rfl (hs.table_eq _ (h.inside hid).1)
    (hs'.table_eq _ (h.inside hid).2)

/-- Two stores have been extended, and are alike. Rules that stood for each other still do, and others
that do are new on both sides. -/
structure Growth (ρ ρ' : RuleId → RuleId → Prop) (s₁ s₁' s₂ s₂' : Store) : Prop where
  left : s₁.Extends s₂
  right : s₁'.Extends s₂'
  old : ρ ≤ ρ'
  new : ∀ id id', ρ' id id' → ρ id id' ∨ s₁.tables.size ≤ id.table ∧ s₁'.tables.size ≤ id'.table
  alike : s₂.Alike ρ' s₂'

/-- Stores that are alike grow to themselves. -/
theorem Growth.refl (h : s.Alike ρ s') : Growth ρ ρ s s' s s' :=
  ⟨.refl s, .refl s', le_rfl, fun _ _ => .inl, h⟩

/-- Growths follow each other. -/
theorem Growth.trans (h : Growth ρ ρ' s s' s₁ s₁') (h' : Growth ρ' ρ'' s₁ s₁' s₂ s₂') :
    Growth ρ ρ'' s s' s₂ s₂' where
  left := h.left.trans h'.left
  right := h.right.trans h'.right
  old := h.old.trans h'.old
  new id id' hid := by
    rcases h'.new id id' hid with hid | ⟨hleft, hright⟩
    · exact h.new id id' hid
    · exact .inr ⟨h.left.size_le.trans hleft, h.right.size_le.trans hright⟩
  alike := h'.alike

/-- Rules stand for each other as before, and so do rules of the same name in two tables. -/
def Opened (ρ : RuleId → RuleId → Prop) (table table' : Nat) (names names' : List String)
    (id id' : RuleId) : Prop :=
  ρ id id' ∨ id.table = table ∧ id'.table = table' ∧
    ∃ name, names.idxOf? name = some id.slot ∧ names'.idxOf? name = some id'.slot

/-- In tables that have just been started no rule does anything. -/
theorem Alike.allocate (h : s.Alike ρ s') (names names' : List String) :
    s.allocate.2.Alike (Opened ρ s.tables.size s'.tables.size names names') s'.allocate.2 where
  inside hid := by
    rw [size_allocate, size_allocate]
    rcases hid with hid | ⟨htable, htable', _⟩
    · exact (h.inside hid).imp Nat.lt_succ_of_lt Nat.lt_succ_of_lt
    · omega
  same {id id'} hid := by
    have hne {s : Store} {id : RuleId} (htable : id.table = s.tables.size) :
        s.allocate.2.table id.table = .forming := by rw [table_allocate, if_pos htable]
    rcases hid with hid | ⟨htable, htable', _⟩
    · obtain ⟨hlt, hlt'⟩ := h.inside hid
      exact (h.same hid).congr (fun _ _ => .inl) ((Extends.allocate s).table_eq _ hlt)
        ((Extends.allocate s').table_eq _ hlt')
    · refine .missing ?_ ?_ ?_ ?_
      · simp [hne htable]
      · simp [hne htable']
      · simp [rule?, hne htable]
      · simp [rule?, hne htable']

/-- A table that was started on either side gets its state at last. -/
theorem Growth.close {names names' : List String} {table table' : Table} (hs : s.Alike ρ s')
    (h : Growth (Opened ρ s.tables.size s'.tables.size names names') ρ'
      s.allocate.2 s'.allocate.2 s₂ s₂')
    (hsame : ∀ name slot slot', names.idxOf? name = some slot → names'.idxOf? name = some slot' →
      (s₂.put s.tables.size table).SameRule ρ' (s₂'.put s'.tables.size table')
        ⟨s.tables.size, slot⟩ ⟨s'.tables.size, slot'⟩) :
    Growth ρ ρ' s s' (s₂.put s.tables.size table) (s₂'.put s'.tables.size table') where
  left := ((Extends.allocate s).trans h.left).put le_rfl table
  right := ((Extends.allocate s').trans h.right).put le_rfl table'
  old _ _ hid := h.old _ _ (.inl hid)
  new id id' hid := by
    have hnew := h.new id id' hid
    rw [size_allocate, size_allocate] at hnew
    rcases hnew with (hid | ⟨htable, htable', _⟩) | ⟨hle, hle'⟩
    · exact .inl hid
    · exact .inr ⟨htable.ge, htable'.ge⟩
    · exact .inr ⟨by omega, by omega⟩
  alike := {
    inside hid := by simpa only [size_put] using h.alike.inside hid
    same {id id'} hid := by
      have hother (hne : id.table ≠ s.tables.size) (hne' : id'.table ≠ s'.tables.size) :
          (s₂.put s.tables.size table).SameRule ρ' (s₂'.put s'.tables.size table') id id' :=
        (h.alike.same hid).congr le_rfl (table_put_of_ne hne) (table_put_of_ne hne')
      have hnew := h.new id id' hid
      rw [size_allocate, size_allocate] at hnew
      rcases hnew with (hid | ⟨htable, htable', name, hslot, hslot'⟩) | ⟨hle, hle'⟩
      · exact hother (hs.inside hid).1.ne (hs.inside hid).2.ne
      · have hboth := hsame name id.slot id'.slot hslot hslot'
        rwa [← htable, ← htable'] at hboth ⊢
      · exact hother (by omega) (by omega) }

/-- A table that was started on either side can be given up. -/
theorem Growth.close_dropped {names : List String} (hs : s.Alike ρ s')
    (h : Growth (Opened ρ s.tables.size s'.tables.size names names) ρ'
      s.allocate.2 s'.allocate.2 s₂ s₂') :
    Growth ρ ρ' s s' (s₂.put s.tables.size .dropped) (s₂'.put s'.tables.size .dropped) := by
  refine h.close hs fun name slot slot' hslot hslot' => ?_
  have hlt : s.tables.size < s₂.tables.size := h.left.size_lt
  have hlt' : s'.tables.size < s₂'.tables.size := h.right.size_lt
  have heq : slot = slot' := Option.some.inj (hslot.symm.trans hslot')
  exact .dropped (table_put_self hlt) (table_put_self hlt') heq

/-- A table that was started on either side can be given alike rules. -/
theorem Growth.close_ready {names : List String} {rules rules' : List Rule} (hs : s.Alike ρ s')
    (h : Growth (Opened ρ s.tables.size s'.tables.size names names) ρ'
      s.allocate.2 s'.allocate.2 s₂ s₂') (hrules : List.Forall₂ (Rule.Alike ρ') rules rules') :
    Growth ρ ρ' s s' (s₂.put s.tables.size (.ready rules.toArray))
      (s₂'.put s'.tables.size (.ready rules'.toArray)) := by
  refine h.close hs fun name slot slot' hslot hslot' => ?_
  have hlt : s.tables.size < s₂.tables.size := h.left.size_lt
  have hlt' : s'.tables.size < s₂'.tables.size := h.right.size_lt
  obtain rfl := Option.some.inj (hslot.symm.trans hslot')
  obtain ⟨hlength, hget⟩ := List.forall₂_iff_get.1 hrules
  have hrule : (s₂.put s.tables.size (.ready rules.toArray)).rule? ⟨s.tables.size, slot⟩ =
      rules[slot]? := by simp [rule?, table_put_self hlt]
  have hrule' : (s₂'.put s'.tables.size (.ready rules'.toArray)).rule? ⟨s'.tables.size, slot⟩ =
      rules'[slot]? := by simp [rule?, table_put_self hlt']
  by_cases hin : slot < rules.length
  · have hin' : slot < rules'.length := hlength ▸ hin
    exact .rule (hrule.trans (List.getElem?_eq_getElem hin))
      (hrule'.trans (List.getElem?_eq_getElem hin')) (hget slot hin hin')
  · have hout : rules.length ≤ slot := Nat.le_of_not_lt hin
    have hout' : rules'.length ≤ slot := hlength ▸ hout
    refine .missing ?_ ?_ (hrule.trans (List.getElem?_eq_none hout))
      (hrule'.trans (List.getElem?_eq_none hout'))
    · simp [table_put_self hlt]
    · simp [table_put_self hlt']

end Store

variable {σ : Type} {α α' β β' : Type}

/-! ## Alike work -/

/-- Works on two sites come to alike ends if they begin on alike sites: their results are related
then, and they have noted the same. What else is on the sites makes no difference. -/
def Build.Alike (related : (RuleId → RuleId → Prop) → α → α' → Prop) (ρ : RuleId → RuleId → Prop)
    (work : Build σ α) (work' : Build σ α') : Prop :=
  ∀ site site', site.store.Alike ρ site'.store → site.missing = site'.missing →
    ∃ ρ', Store.Growth ρ ρ' site.store site'.store (work site).2.store (work' site').2.store ∧
      related ρ' (work site).1 (work' site').1 ∧
      (work site).2.missing = (work' site').2.missing

/-- Two handles have the same names, and rules of the same name stand for each other. -/
structure Rules.Alike (ρ : RuleId → RuleId → Prop) (r r' : Rules) : Prop where
  current : r.current = r'.current
  names : ∀ name, name ∈ r.names ↔ name ∈ r'.names
  slots : ∀ {name slot slot'}, r.names.idxOf? name = some slot →
    r'.names.idxOf? name = some slot' → ρ ⟨r.table, slot⟩ ⟨r'.table, slot'⟩

/-- Two builders do alike work when they are given alike handles. -/
def BuilderAlike (ρ : RuleId → RuleId → Prop) (builder builder' : Rules → Build σ Parser) : Prop :=
  ∀ ρ' r r', ρ ≤ ρ' → r.Alike ρ' r' → Build.Alike Parser.Alike ρ' (builder r) (builder' r')

/-- Two results are the same error, or related. -/
def ResultAlike (related : (RuleId → RuleId → Prop) → α → α' → Prop) (ρ : RuleId → RuleId → Prop) :
    Except GrammarError α → Except GrammarError α' → Prop
  | .ok x, .ok x' => related ρ x x'
  | .error e, .error e' => e = e'
  | _, _ => False

variable {related : (RuleId → RuleId → Prop) → α → α' → Prop}
  {related' : (RuleId → RuleId → Prop) → β → β' → Prop} {r r' : Rules}

/-- Works that end at once are alike if their results are related. -/
theorem Build.Alike.pure {x : α} {x' : α'} (hx : related ρ x x') :
    Build.Alike related ρ (pure x : Build σ α) (pure x') :=
  fun _ _ hstore hmissing => ⟨ρ, .refl hstore, hx, hmissing⟩

/-- Alike works followed by alike works are alike. -/
theorem Build.Alike.bind {work : Build σ α} {work' : Build σ α'} {next : α → Build σ β}
    {next' : α' → Build σ β'} (h : Build.Alike related ρ work work')
    (hnext : ∀ ρ' x x', ρ ≤ ρ' → related ρ' x x' → Build.Alike related' ρ' (next x) (next' x')) :
    Build.Alike related' ρ (work >>= next) (work' >>= next') := by
  intro site site' hstore hmissing
  obtain ⟨ρ₁, hgrowth, hx, hmissing⟩ := h site site' hstore hmissing
  obtain ⟨ρ₂, hgrowth', hy, hmissing⟩ := hnext ρ₁ _ _ hgrowth.old hx _ _ hgrowth.alike hmissing
  exact ⟨ρ₂, hgrowth.trans hgrowth', hy, hmissing⟩

/-- Works that may come to an error are alike if they go on alike after alike results. -/
theorem Build.Alike.unlessError {work : Build σ (Except GrammarError α)}
    {work' : Build σ (Except GrammarError α')} {next : α → Build σ (Except GrammarError β)}
    {next' : α' → Build σ (Except GrammarError β')}
    (h : Build.Alike (ResultAlike related) ρ work work')
    (hnext : ∀ ρ' x x', ρ ≤ ρ' → related ρ' x x' →
      Build.Alike (ResultAlike related') ρ' (next x) (next' x')) :
    Build.Alike (ResultAlike related') ρ (Build.unlessError work next)
      (Build.unlessError work' next') := by
  refine h.bind fun ρ' x x' hρ hx => ?_
  rcases x with e | x
  · rcases x' with e' | x'
    · exact .pure hx
    · exact hx.elim
  · rcases x' with e' | x'
    · exact hx.elim
    · exact hnext ρ' x x' hρ hx

/-- Handles stay alike when more rules stand for each other. -/
theorem Rules.Alike.mono (h : r.Alike ρ r') (hρ : ρ ≤ ρ') : r.Alike ρ' r' :=
  ⟨h.current, h.names, fun hslot hslot' => hρ _ _ (h.slots hslot hslot')⟩

/-- Handles that are alike give parsers that are alike. -/
theorem Rules.Alike.rule (h : r.Alike ρ r') (name : String) :
    Build.Alike Parser.Alike ρ (r.rule name : Build σ Parser) (r'.rule name) := by
  intro site site' hstore hmissing
  unfold Rules.rule
  cases hslot : r.names.idxOf? name with
  | some slot =>
    have hmem : name ∈ r'.names := (h.names name).1 (List.isSome_idxOf?.1 (by rw [hslot]; rfl))
    obtain ⟨slot', hslot'⟩ := Option.isSome_iff_exists.1 (List.isSome_idxOf?.2 hmem)
    rw [hslot']
    exact ⟨ρ, .refl hstore, .reference name (h.slots hslot hslot'), hmissing⟩
  | none =>
    have hnot : name ∉ r'.names := fun hmem =>
      List.idxOf?_eq_none_iff.1 hslot ((h.names name).2 hmem)
    rw [List.idxOf?_eq_none_iff.2 hnot]
    exact ⟨ρ, .refl hstore, .direct rfl, by simp [hmissing]⟩

namespace Grammar

variable {table table' : Nat} {names names' : List String} {d d' : Declaration σ}
  {ds ds' : List (Declaration σ)}

/-- The handles of two grammars with the same names are alike. -/
theorem rules_alike (hnames : ∀ name, name ∈ names ↔ name ∈ names') (current : String) :
    Rules.Alike (Store.Opened ρ table table' names names') ⟨table, names, current⟩
      ⟨table', names', current⟩ :=
  ⟨rfl, hnames, fun hslot hslot' => .inr ⟨rfl, rfl, _, hslot, hslot'⟩⟩

/-- Turns of alike builders are alike. -/
theorem turn_alike (hname : d.name = d'.name) (hd : BuilderAlike ρ d.builder d'.builder)
    (hr : ∀ current, Rules.Alike ρ ⟨table, names, current⟩ ⟨table', names', current⟩)
    {site site' : Site σ} (hstore : site.store.Alike ρ site'.store) :
    ∃ ρ', Store.Growth ρ ρ' site.store site'.store (turn table names site d).2.store
        (turn table' names' site' d').2.store ∧
      (turn table names site d).1.Alike ρ' (turn table' names' site' d').1 ∧
      (turn table names site d).2.missing = (turn table' names' site' d').2.missing :=
  hd ρ ⟨table, names, d.name⟩ ⟨table', names', d'.name⟩ le_rfl (hname ▸ hr d.name)
    { site with missing := [] } { site' with missing := [] } hstore rfl

/-- Alike builders make alike rules. -/
theorem buildRule_alike (hname : d.name = d'.name) (hd : BuilderAlike ρ d.builder d'.builder)
    (hr : ∀ current, Rules.Alike ρ ⟨table, names, current⟩ ⟨table', names', current⟩) :
    Build.Alike (ResultAlike Rule.Alike) ρ (buildRule table names d)
      (buildRule table' names' d') := by
  intro site site' hstore hmissing
  obtain ⟨ρ', hgrowth, hbody, hnoted⟩ := turn_alike hname hd hr hstore
  rw [buildRule_eq, buildRule_eq, ← hnoted]
  refine ⟨ρ', hgrowth, ?_, hmissing⟩
  cases (turn table names site d).2.missing with
  | nil => exact ⟨hname, hbody⟩
  | cons name more => exact hname ▸ rfl

/-- Alike builders make alike rules one after the other. -/
theorem buildRules_alike (hρ : ρ ≤ ρ')
    (hds : List.Forall₂ (fun d d' => d.name = d'.name ∧ BuilderAlike ρ d.builder d'.builder) ds ds')
    (hr : ∀ current, Rules.Alike ρ' ⟨table, names, current⟩ ⟨table', names', current⟩) :
    Build.Alike (ResultAlike fun ρ => List.Forall₂ (Rule.Alike ρ)) ρ'
      (buildRules table names ds) (buildRules table' names' ds') := by
  induction hds generalizing ρ' with
  | nil => exact .pure .nil
  | cons hd _ ih =>
    obtain ⟨hname, hbuilder⟩ := hd
    have hrule := buildRule_alike hname
      (fun ρ'' r r' hρ'' => hbuilder ρ'' r r' (hρ.trans hρ'')) hr
    rw [buildRules_cons, buildRules_cons]
    refine hrule.unlessError fun ρ₁ rule rule' hρ₁ hrule => ?_
    have hrules := ih (hρ.trans hρ₁) fun current => (hr current).mono hρ₁
    refine hrules.unlessError fun ρ₂ rules rules' hρ₂ hrules => .pure ?_
    exact .cons ⟨hrule.1, hrule.2.mono hρ₂⟩ hrules

/-- Builds of grammars with the same names are alike if their builders are. -/
theorem build_alike
    (hds : List.Forall₂ (fun d d' => d.name = d'.name ∧ BuilderAlike ρ d.builder d'.builder) ds ds')
    (start : String) :
    Build.Alike (ResultAlike Parser.Alike) ρ (build ds start) (build ds' start) := by
  intro site site' hstore hmissing
  have hnames : ds'.map (·.name) = ds.map (·.name) := by
    induction hds with
    | nil => rfl
    | cons hd _ ih => rw [List.map_cons, List.map_cons, ih, hd.1]
  unfold build
  simp only [hnames]
  generalize ds.map (·.name) = names
  cases hrepeated : firstRepeated? [] names with
  | some name => exact ⟨ρ, .refl hstore, rfl, hmissing⟩
  | none =>
    cases hstart : names.idxOf? start with
    | none => exact ⟨ρ, .refl hstore, rfl, hmissing⟩
    | some slot =>
      obtain ⟨ρ', hgrowth, hrules, hnoted⟩ := buildRules_alike (fun _ _ => .inl) hds
        (rules_alike fun _ => .rfl) { site with store := site.store.allocate.2 }
        { site' with store := site'.store.allocate.2 } (hstore.allocate names names) hmissing
      simp only [Store.allocate_fst]
      rcases hleft : buildRules site.store.tables.size names ds
        { site with store := site.store.allocate.2 } with ⟨e | rules, left⟩
      · rcases hleft' : buildRules site'.store.tables.size names ds'
          { site' with store := site'.store.allocate.2 } with ⟨e' | rules', left'⟩
        · rw [hleft, hleft'] at hgrowth hrules hnoted
          exact ⟨ρ', hgrowth.close_dropped hstore, hrules, hnoted⟩
        · rw [hleft, hleft'] at hrules
          exact hrules.elim
      · rcases hleft' : buildRules site'.store.tables.size names ds'
          { site' with store := site'.store.allocate.2 } with ⟨e' | rules', left'⟩
        · rw [hleft, hleft'] at hrules
          exact hrules.elim
        · rw [hleft, hleft'] at hgrowth hrules hnoted
          have hentry : Store.Opened ρ site.store.tables.size site'.store.tables.size names names
              ⟨site.store.tables.size, slot⟩ ⟨site'.store.tables.size, slot⟩ :=
            .inr ⟨rfl, rfl, start, hstart, hstart⟩
          have hp := Parser.Alike.entry start (hgrowth.old _ _ hentry)
          exact ⟨ρ', hgrowth.close_ready hstore hrules, hp, hnoted⟩

end Grammar

end Descent
