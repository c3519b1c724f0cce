import Descent.Proofs.Ownership.Build
import Descent.Proofs.Part
import Descent.Session.Basic

/-!
# How long the rules of a grammar are there

In the course of a session parsers are made, copied, renamed, put together and dropped, and grammars
are built inside each other. The table of a grammar is there as long as the grammar was built and is
owned: a parser in a slot or a sequence holds its entry, or a rule of another grammar that is owned.
References own nothing. So a reference runs its rule in this case, and in all others it fails with one
warning (`Session.reference_lifetime`).
-/

namespace Descent

namespace Parser

variable {table : Nat} {p c : Parser}

/-- A parser holds an entry of a grammar: it is one, or was put together from a parser that holds
one. -/
inductive Holds (table : Nat) : Parser → Prop
  | entry (name : String) (slot : Nat) : Holds table (.entry name ⟨table, slot⟩)
  | child {p c : Parser} (hc : c ∈ p.children) (hholds : Holds table c) : Holds table p

/-- A parser keeps what it was put together from keeps. -/
theorem kept_subset_of_child (hc : c ∈ p.children) : c.kept ⊆ p.kept := by
  cases p with
  | many0 | many1 | exactly | named | guarded =>
    cases List.mem_singleton.1 hc
    exact List.Subset.refl _
  | between inner opening closing =>
    simp only [children, List.mem_cons, List.not_mem_nil, or_false] at hc
    intro id hid
    rcases hc with rfl | rfl | rfl <;> simp [kept, hid]
  | orElse | andThen | thenOptional | optionalThen | thenIgnore | ignoreThen =>
    simp only [children, List.mem_cons, List.not_mem_nil, or_false] at hc
    intro id hid
    rcases hc with rfl | rfl <;> simp [kept, hid]
  | _ => cases hc

/-- A parser keeps the tables of the entries that it holds. -/
theorem holds_iff : p.Holds table ↔ table ∈ p.kept := by
  constructor
  · intro h
    induction h with
    | entry name slot => exact List.mem_singleton.2 rfl
    | child hc _ ih => exact kept_subset_of_child hc ih
  · intro h
    induction p with
    | many0 body ih | many1 body ih | exactly count body ih | named name body ih
    | guarded objection body ih => exact .child (by simp [children]) (ih h)
    | between inner opening closing ihInner ihOpening ihClosing =>
      simp only [kept, List.mem_append] at h
      rcases h with (h | h) | h
      · exact .child (by simp [children]) (ihInner h)
      · exact .child (by simp [children]) (ihOpening h)
      · exact .child (by simp [children]) (ihClosing h)
    | orElse a b iha ihb | andThen a b iha ihb | thenOptional a b iha ihb
    | optionalThen a b iha ihb | thenIgnore a b iha ihb | ignoreThen a b iha ihb =>
      rcases List.mem_append.1 h with h | h
      · exact .child (c := a) (by simp [children]) (iha h)
      · exact .child (c := b) (by simp [children]) (ihb h)
    | entry name id =>
      rw [List.mem_singleton.1 h]
      exact .entry name id.slot
    | _ => cases h

end Parser

/-- Tidy recipes are tidy one after the other. -/
theorem Recipe.mapM_prepare_tidy (rules : Rules) (recipes : List Recipe) :
    Prepare.Tidy [] (fun ps => ps.flatMap Parser.kept)
      (recipes.mapM fun recipe => recipe.prepare rules) := by
  induction recipes with
  | nil => exact .pure (List.Subset.refl [])
  | cons recipe recipes ih =>
    rw [List.mapM_cons]
    refine (prepare_tidy rules recipe).bind fun p => ?_
    refine (ih.weaken (List.nil_subset _)).bind fun ps => .pure ?_
    simp

namespace Session

variable {s s' : Session} {α : Type} {keeps : α → List Nat} {p : Parser}

/-- The store of a session is sound, no grammar is being built, and the parsers at hand keep tables
that are ready. -/
structure Sound (s : Session) : Prop where
  store : s.store.Sound
  settled : ∀ id, s.store.table id ≠ .forming
  parsers : ∀ p ∈ s.parsers, s.store.Ready p.kept

/-- Other parsers can be at hand if they keep tables that are ready. -/
theorem Sound.congr (hs : s.Sound) (hstore : s'.store = s.store)
    (hparsers : ∀ p ∈ s'.parsers, p ∈ s.parsers ∨ s.store.Ready p.kept) : s'.Sound where
  store := hstore ▸ hs.store
  settled := hstore ▸ hs.settled
  parsers p hp := hstore ▸ (hparsers p hp).elim (hs.parsers p) id

/-- Tidy work leaves a sound session. -/
theorem Sound.work (hs : s.Sound) {work : Prepare α} (hwork : Prepare.Tidy [] keeps work) :
    (s.work work).2.2.Sound ∧ s.store.Grown (s.work work).2.2.store ∧
      (s.work work).2.2.store.Ready (keptByResult keeps (s.work work).1) := by
  have hslots : ∀ p ∈ s.slots.values, s.store.Ready p.kept := fun p hp =>
    hs.parsers p (List.mem_append_left _ hp)
  obtain ⟨hsite, hgrown, hkept⟩ := hwork (.fresh s.store ⟨s.slots, none⟩) ⟨hs.store, hslots⟩
    (.nil _)
  refine ⟨⟨hsite.store, fun id => ?_, fun p hp => ?_⟩, hgrown, hkept⟩
  · by_cases hid : id < s.store.tables.size
    · have htable := hgrown.table_eq id hid
      exact fun hforming => hs.settled id (htable.symm.trans hforming)
    · exact hgrown.finished id (Nat.le_of_not_lt hid)
  · rcases List.mem_append.1 hp with hp | hp
    · exact hsite.slots p hp
    · exact (hs.parsers p (List.mem_append_right _ hp)).grown hgrown.toExtends

/-- A session is sound without the tables that nobody keeps. -/
theorem Sound.collect (hs : s.Sound) (others : List Parser)
    (hothers : ∀ p ∈ others, s.store.Ready p.kept) :
    (s.collect others).Sound ∧ s.store.Shrinks (s.collect others).store ∧
      ∀ p ∈ others, (s.collect others).store.Ready p.kept := by
  have hparsers : ∀ p ∈ others ++ s.parsers, s.store.Ready p.kept := fun p hp =>
    (List.mem_append.1 hp).elim (hothers p) (hs.parsers p)
  have hshrinks := Store.shrinks_collect hs.store hparsers
  refine ⟨⟨hs.store.collect hparsers, fun id => ?_, fun p hp => ?_⟩, hshrinks, fun p hp => ?_⟩
  · rcases hshrinks.table_eq id with heq | hdropped
    · exact fun hforming => hs.settled id (heq.symm.trans hforming)
    · exact fun hforming => by cases hdropped.symm.trans hforming
  · exact Store.ready_collect_of_mem hs.store hparsers (List.mem_append_right _ hp)
  · exact Store.ready_collect_of_mem hs.store hparsers (List.mem_append_left _ hp)

/-- A parser is at hand in a slot or in a sequence. -/
theorem mem_parsers : p ∈ s.parsers ↔
    p ∈ s.slots.values ∨ ∃ q ∈ s.sequences.values, p ∈ q.parsers := by
  simp [parsers]

/-- A parser that is put in a slot is the only new one. -/
theorem Sound.putSlot (hs : s.Sound) (slot : String) (hp : s.store.Ready p.kept) :
    Sound { s with slots := s.slots.put slot p } := by
  refine hs.congr rfl fun other hother => ?_
  rcases mem_parsers.1 hother with hother | hother
  · rcases Slots.mem_values_put hother with rfl | hother
    · exact .inr hp
    · exact .inl (mem_parsers.2 (.inl hother))
  · exact .inl (mem_parsers.2 (.inr hother))

/-- The parsers of a sequence that is put under a name are the only new ones. -/
theorem Sound.putSequence (hs : s.Sound) (name : String) {q : Sequence Value}
    (hq : ∀ p ∈ q.parsers, s.store.Ready p.kept) :
    Sound { s with sequences := s.sequences.put name q } := by
  refine hs.congr rfl fun other hother => ?_
  rcases mem_parsers.1 hother with hother | ⟨q', hq', hother⟩
  · exact .inl (mem_parsers.2 (.inl hother))
  · rcases Slots.mem_values_put hq' with heq | hq'
    · exact .inr (hq other (heq ▸ hother))
    · exact .inl (mem_parsers.2 (.inr ⟨q', hq', hother⟩))

/-- The store when a command has made what it says, before anything is dropped. -/
def built (s : Session) : Command → Store
  | .define _ recipe => (s.work (recipe.prepare noRules)).2.2.store
  | .sequence _ recipes _ =>
    (s.work (recipes.mapM fun recipe => recipe.prepare noRules)).2.2.store
  | _ => s.store

/-- An answer about a slot leaves a session as it was if the answer about its parser does. -/
theorem withSlot_session {slot : String} {use : Parser → Answer × Log × Session}
    (huse : ∀ p, ∃ answer log, use p = (answer, log, s)) :
    ∃ answer log, s.withSlot slot use = (answer, log, s) := by
  unfold withSlot
  cases s.slots.get? slot with
  | none => exact ⟨_, _, rfl⟩
  | some p => exact huse p

/-- An answer about a sequence in a slot leaves a session as it was if the answer about the sequence
does. -/
theorem withSequence_session {name : String} {use : Sequence Value → Answer × Log × Session}
    (huse : ∀ q, ∃ answer log, use q = (answer, log, s)) :
    ∃ answer log, s.withSequence name use = (answer, log, s) := by
  unfold withSequence
  cases s.sequences.get? name with
  | none => exact ⟨_, _, rfl⟩
  | some q => exact huse q

/-- A command on a sound session leaves another, when it has added the tables of the given store and
dropped some again. -/
structure Leaves (s : Session) (made : Store) (s' : Session) : Prop where
  sound : s'.Sound
  grown : s.store.Grown made
  shrinks : made.Shrinks s'.store

/-- A definition leaves the parser that was made in its slot, and what that one keeps. -/
theorem Sound.define (hs : s.Sound) (slot : String) (recipe : Recipe) :
    s.Leaves (s.built (.define slot recipe)) (s.perform (.define slot recipe)).2.2 := by
  obtain ⟨hleft, hgrown, hkept⟩ := hs.work (recipe.prepare_tidy noRules)
  simp only [Session.perform, built, prepare]
  rcases hresult : s.work (recipe.prepare noRules) with ⟨fault | p, log, left⟩
  · rw [hresult] at hleft hgrown
    obtain ⟨hleft, hshrinks, _⟩ := hleft.collect [] (by simp)
    exact ⟨hleft, hgrown, hshrinks⟩
  · rw [hresult] at hleft hgrown hkept
    obtain ⟨hleft, hshrinks, hkept⟩ := hleft.collect [p] fun _ hq =>
      List.mem_singleton.1 hq ▸ hkept
    exact ⟨hleft.putSlot slot (hkept p List.mem_cons_self), hgrown, hshrinks⟩

/-- The making of a sequence leaves its parsers, and what they keep. -/
theorem Sound.sequence (hs : s.Sound) (name : String) (recipes : List Recipe) (combine : Combine) :
    s.Leaves (s.built (.sequence name recipes combine))
      (s.perform (.sequence name recipes combine)).2.2 := by
  obtain ⟨hleft, hgrown, hkept⟩ := hs.work (Recipe.mapM_prepare_tidy noRules recipes)
  simp only [Session.perform, built, prepareSequence, prepareAll]
  rcases hresult : s.work (recipes.mapM fun recipe => recipe.prepare noRules) with
    ⟨fault | ps, log, left⟩
  · simp only [hresult] at hleft hgrown ⊢
    obtain ⟨hleft, hshrinks, _⟩ := hleft.collect [] (by simp)
    exact ⟨hleft, hgrown, hshrinks⟩
  · simp only [hresult] at hleft hgrown hkept ⊢
    have hready : ∀ p ∈ ps, left.store.Ready p.kept := fun p hp id hid =>
      hkept id (List.mem_flatMap.2 ⟨p, hp, hid⟩)
    obtain ⟨hleft, hshrinks, hkept⟩ := hleft.collect ps hready
    by_cases hps : ps = []
    · have hempty : Sequence.ofList ps combine.value = .error .emptySequence := dif_pos hps
      simp only [bind, Except.bind, hempty]
      exact ⟨hleft, hgrown, hshrinks⟩
    · have hnonempty : Sequence.ofList ps combine.value = .ok ⟨ps, combine.value, hps⟩ :=
        dif_neg hps
      simp only [bind, Except.bind, hnonempty]
      exact ⟨hleft.putSequence name hkept, hgrown, hshrinks⟩

/-- Every command leaves a sound session. -/
theorem Sound.perform (hs : s.Sound) (c : Command) : s.Leaves (s.built c) (s.perform c).2.2 := by
  have hleaves {s' : Session} (hs' : s'.Sound) (hstore : s'.store = s.store) :
      s.Leaves s.store s' := ⟨hs', .refl _, hstore ▸ .refl _⟩
  have hsame {c : Command} (hleft : ∃ answer log, s.perform c = (answer, log, s)) :
      s.Leaves s.store (s.perform c).2.2 := by
    obtain ⟨answer, log, hleft⟩ := hleft
    rw [hleft]
    exact hleaves hs rfl
  have hslot {slot : String} {p : Parser} (hp : s.slots.get? slot = some p) :
      s.store.Ready p.kept := hs.parsers p (mem_parsers.2 (.inl (Slots.mem_values_of_get? hp)))
  cases c with
  | define slot recipe => exact hs.define slot recipe
  | sequence name recipes combine => exact hs.sequence name recipes combine
  | run slot text =>
    exact hsame (withSlot_session fun p => by cases s.store.run p text <;> exact ⟨_, _, rfl⟩)
  | drop slot =>
    refine hleaves (hs.congr rfl fun p hp => .inl ?_) rfl
    rcases mem_parsers.1 hp with hp | hp
    · exact mem_parsers.2 (.inl (Slots.mem_values_of_erase hp))
    · exact mem_parsers.2 (.inr hp)
  | rename slot name =>
    simp only [Session.perform, withSlot]
    cases hp : s.slots.get? slot with
    | none => exact hleaves hs rfl
    | some p => exact hleaves (hs.putSlot slot (p := .named name p) (hslot (p := p) hp)) rfl
  | copy source target =>
    simp only [Session.perform, withSlot]
    cases hp : s.slots.get? source with
    | none => exact hleaves hs rfl
    | some p => exact hleaves (hs.putSlot target (hslot hp)) rfl
  | inspect slot =>
    exact hsame (withSlot_session fun p => ⟨_, _, rfl⟩)
  | runEach slot texts =>
    exact hsame (withSlot_session fun p => by
      cases texts.mapM fun text => (s.store.run p text).map fun r => (text, r.outcome) <;>
        exact ⟨_, _, rfl⟩)
  | copySequence source target =>
    simp only [Session.perform, withSequence]
    cases hq : s.sequences.get? source with
    | none => exact hleaves hs rfl
    | some q =>
      refine hleaves (hs.putSequence target fun p hp => hs.parsers p ?_) rfl
      exact mem_parsers.2 (.inr ⟨q, Slots.mem_values_of_get? hq, hp⟩)
  | dropSequence name =>
    refine hleaves (hs.congr rfl fun p hp => .inl ?_) rfl
    rcases mem_parsers.1 hp with hp | ⟨q, hq, hp⟩
    · exact mem_parsers.2 (.inl hp)
    · exact mem_parsers.2 (.inr ⟨q, Slots.mem_values_of_erase hq, hp⟩)
  | runSequence name text =>
    exact hsame (withSequence_session fun q => by cases q.run s.store text <;> exact ⟨_, _, rfl⟩)

/-! ## Histories -/

/-- The session after commands. -/
def after (s : Session) (history : List Command) : Session :=
  history.foldl (fun s c => (s.execute c).2.2) s

/-- In the course of a history a grammar was built with these rules, under this number. -/
def Built (history : List Command) (table : Nat) (rules : Array Rule) : Prop :=
  ∃ past c future, history = past ++ c :: future ∧
    ((empty.after past).built c).table table = .ready rules

/-- A grammar is owned after a history: a parser in a slot or a sequence holds its entry, or a rule of
a grammar that was built and is owned itself. -/
inductive Owned (history : List Command) : Nat → Prop
  | held {p : Parser} {table : Nat} (hp : p ∈ (empty.after history).parsers)
    (hholds : p.Holds table) : Owned history table
  | through {owner : Nat} {rules : Array Rule} {rule : Rule} {table : Nat}
    (howner : Owned history owner) (hbuilt : Built history owner rules) (hrule : rule ∈ rules.toList)
    (hholds : rule.body.Holds table) : Owned history table

variable {history : List Command} {table : Nat} {rules : Array Rule}

/-- One more command. -/
theorem after_concat (history : List Command) (c : Command) :
    empty.after (history ++ [c]) = ((empty.after history).perform c).2.2.collect [] := by
  simp only [after, List.foldl_append, List.foldl_cons, List.foldl_nil, execute]

/-- What was built in a longer history was built before, or by the last command. -/
theorem built_concat {c : Command} : Built (history ++ [c]) table rules ↔
    Built history table rules ∨ ((empty.after history).built c).table table = .ready rules := by
  constructor
  · rintro ⟨past, c', future, hsplit, htable⟩
    rcases List.eq_nil_or_concat future with rfl | ⟨future, last, rfl⟩
    · obtain ⟨rfl, hlast⟩ := List.append_inj' hsplit rfl
      cases hlast
      exact .inr htable
    · rw [List.concat_eq_append, ← List.cons_append, ← List.append_assoc] at hsplit
      exact .inl ⟨past, c', future, (List.append_inj' hsplit rfl).1, htable⟩
  · rintro (⟨past, c', future, rfl, htable⟩ | htable)
    · exact ⟨past, c', future ++ [c], by simp, htable⟩
    · exact ⟨history, c, [], rfl, htable⟩

/-- What a session remembers of its history: tables that are ready were built and are owned, and those
that were built are still ready, or have been dropped. -/
structure Remembers (history : List Command) (s : Session) : Prop extends s.Sound where
  built : ∀ {table rules}, s.store.table table = .ready rules → Built history table rules
  owned : ∀ {table rules}, s.store.table table = .ready rules → Owned history table
  lasting : ∀ {table rules}, Built history table rules → table < s.store.tables.size ∧
    (s.store.table table = .ready rules ∨ s.store.table table = .dropped)

/-- A table that is reached from the parsers at hand is owned, if all tables that are ready were
built. -/
theorem owned_of_reachedFrom {store : Store}
    (hbuilt : ∀ {table rules}, store.table table = .ready rules → Built history table rules)
    (hreached : store.ReachedFrom (empty.after history).parsers table) : Owned history table := by
  obtain ⟨p, hp, first, hfirst, hpath⟩ := hreached
  induction hpath with
  | refl => exact .held hp (Parser.holds_iff.2 hfirst)
  | tail _ hkeeps ih =>
    obtain ⟨rules, htable, rule, hrule, hkept⟩ := Store.keeps_iff.1 hkeeps
    exact .through ih (hbuilt htable) hrule (Parser.holds_iff.2 hkept)

/-- A session in which nothing has been done is sound. -/
theorem sound_empty : empty.Sound := by
  have hdropped (table : Nat) : empty.store.table table = .dropped := by
    simp [empty, Store.empty, Store.table]
  have hkeeps {a b : Nat} : ¬ empty.store.Keeps a b := fun hkeeps => by
    obtain ⟨rules, htable, _⟩ := Store.keeps_iff.1 hkeeps
    cases (hdropped a).symm.trans htable
  refine ⟨⟨fun a b hb => (hkeeps hb).elim, fun a hcycle => ?_⟩, fun table => ?_, fun p hp => ?_⟩
  · obtain ⟨b, hb, _⟩ := Relation.TransGen.head'_iff.1 hcycle
    exact hkeeps hb
  · simp [hdropped]
  · cases hp

/-- Every session remembers its history. -/
theorem remembers_after (history : List Command) : Remembers history (empty.after history) := by
  induction history using List.reverseRecOn with
  | nil =>
    have hdropped {table : Nat} {rules : Array Rule} :
        (empty.after []).store.table table ≠ .ready rules := by
      simp [after, empty, Store.empty, Store.table]
    refine ⟨sound_empty, fun htable => (hdropped htable).elim,
      fun htable => (hdropped htable).elim, ?_⟩
    rintro table rules ⟨past, c, future, hsplit, _⟩
    simp at hsplit
  | append_singleton history c ih =>
    have hleaves := ih.toSound.perform c
    obtain ⟨hsound, hshrinks, _⟩ := hleaves.sound.collect [] (by simp)
    have hmade := hleaves.shrinks.trans hshrinks
    have hbuilt {table : Nat} {rules : Array Rule}
        (htable : ((empty.after history).perform c).2.2.store.table table = .ready rules) :
        Built (history ++ [c]) table rules :=
      built_concat.2 (.inr (hleaves.shrinks.table_of_ready htable))
    rw [after_concat]
    refine ⟨hsound, fun htable => hbuilt (hshrinks.table_of_ready htable),
      fun {table rules} htable => ?_, fun {table rules} hbefore => ?_⟩
    · -- Only the last collection says who owns what, since a command may put new parsers at hand.
      refine owned_of_reachedFrom hbuilt ?_
      rw [after_concat]
      exact Store.reachedFrom_of_ready hleaves.sound.store hleaves.sound.parsers htable
    · rw [hmade.size_eq]
      rcases built_concat.1 hbefore with hbefore | hnow
      · obtain ⟨hlt, hstate⟩ := ih.lasting hbefore
        rw [← hleaves.grown.table_eq table hlt] at hstate
        refine ⟨hlt.trans_le hleaves.grown.size_le, ?_⟩
        rcases hmade.table_eq table with heq | hdropped
        · exact hstate.imp heq.trans heq.trans
        · exact .inr hdropped
      · refine ⟨Store.lt_size_of_table_ne (by simp [hnow]), ?_⟩
        exact (hmade.table_eq table).imp_left fun heq => heq.trans hnow

/-- A grammar that is owned is ready. -/
theorem Owned.ready (h : Owned history table) :
    ∃ rules, (empty.after history).store.table table = .ready rules := by
  have hsession := remembers_after history
  induction h with
  | held hp hholds => exact hsession.parsers _ hp _ (Parser.holds_iff.1 hholds)
  | through _ hbuilt hrule hholds ih =>
    obtain ⟨rules, hready⟩ := ih
    rcases (hsession.lasting hbuilt).2 with htable | hdropped
    · exact hsession.store.kept _ _ (Store.keeps_iff.2
        ⟨_, htable, _, hrule, Parser.holds_iff.1 hholds⟩)
    · cases hdropped.symm.trans hready

/-- The rules of a grammar are there if and only if it was built and is owned. -/
theorem table_eq_ready_iff : (empty.after history).store.table table = .ready rules ↔
    Built history table rules ∧ Owned history table := by
  have hsession := remembers_after history
  refine ⟨fun htable => ⟨hsession.built htable, hsession.owned htable⟩, fun ⟨hbuilt, howned⟩ => ?_⟩
  obtain ⟨rules', hready⟩ := howned.ready
  rcases (hsession.lasting hbuilt).2 with htable | hdropped
  · exact htable
  · cases hdropped.symm.trans hready

/-- After every history a reference to a rule runs the rule if its grammar was built and is owned, and
otherwise fails with one warning, which tells the place of declaration. The rules of a grammar are
there just as long, and no grammar owns itself, be it through others. -/
theorem reference_lifetime (history : List Command) (name : String) (id : RuleId) :
    (∀ rules, Built history id.table rules → Owned history id.table →
      ∀ rule, rules[id.slot]? = some rule → ∀ t r,
        (empty.after history).store.Runs (.reference name id) t r ↔
          ∃ o l, (empty.after history).store.Runs rule.body t ⟨o, l⟩ ∧
            r = ⟨o, .enterRule rule.name t.size :: l ++
              [.exitRule rule.name o.ok (o.consumed t)]⟩) ∧
      ((¬ ∃ rules, Built history id.table rules ∧ Owned history id.table) →
        ∀ t, (empty.after history).store.run (.reference name id) t =
          some ⟨.failure t, [.deadReference id.slot]⟩) ∧
      (∀ rules, (empty.after history).store.table id.table = .ready rules ↔
        Built history id.table rules ∧ Owned history id.table) ∧
      ¬ Relation.TransGen (empty.after history).store.Keeps id.table id.table := by
  have hsession := remembers_after history
  refine ⟨fun rules hbuilt howned rule hrule t r => ?_, fun hnot t => ?_,
    fun rules => table_eq_ready_iff, hsession.store.acyclic id.table⟩
  · have htable := table_eq_ready_iff.2 ⟨hbuilt, howned⟩
    exact Store.runs_target_iff rfl (by simpa only [Store.rule?, htable] using hrule)
  · have hdropped : (empty.after history).store.table id.table = .dropped := by
      cases htable : (empty.after history).store.table id.table with
      | dropped => rfl
      | forming => exact absurd htable (hsession.settled id.table)
      | ready rules => exact absurd ⟨rules, table_eq_ready_iff.1 htable⟩ hnot
    obtain ⟨depth, hrun⟩ :=
      Store.run_of_target (s := (empty.after history).store) (p := .reference name id) rfl t
    rw [hrun, Store.call_of_dropped hdropped]

/-- Makes a grammar whose only rule calls itself, and puts a reference to the rule aside. -/
def makeWords : Command :=
  .define "words"
    (.grammar [("word", .thenOptional .anyLetter (.escape "escaped" "word"))] "word")

/-- The rules of this grammar. -/
def wordsRules : Array Rule :=
  #[⟨"word", .thenOptional .anyLetter (.reference "word" ⟨0, 0⟩)⟩]

/-- As long as the grammar is in its slot, the reference that was put aside runs the rule. Once the slot
is empty, it fails with a warning, though it is still in its own slot. -/
theorem reference_lifetime_words :
    (∀ t r, (empty.after [makeWords]).store.Runs (.reference "word" ⟨0, 0⟩) t r ↔
      ∃ o l, (empty.after [makeWords]).store.Runs
          (.thenOptional .anyLetter (.reference "word" ⟨0, 0⟩)) t ⟨o, l⟩ ∧
        r = ⟨o, .enterRule "word" t.size :: l ++ [.exitRule "word" o.ok (o.consumed t)]⟩) ∧
      (empty.after [makeWords, .drop "words"]).slots.get? "escaped" =
        some (.reference "word" ⟨0, 0⟩) ∧
      ∀ t, (empty.after [makeWords, .drop "words"]).store.run (.reference "word" ⟨0, 0⟩) t =
        some ⟨.failure t, [.deadReference 0]⟩ := by
  have hbuilt : Built [makeWords] 0 wordsRules := ⟨[], makeWords, [], rfl, rfl⟩
  have hentry : Parser.entry "word" ⟨0, 0⟩ ∈ (empty.after [makeWords]).parsers :=
    mem_parsers.2 (.inl List.mem_cons_self)
  have howned : Owned [makeWords] 0 := .held hentry (.entry "word" 0)
  obtain ⟨hruns, _⟩ := reference_lifetime [makeWords] "word" ⟨0, 0⟩
  obtain ⟨_, hfails, hthere, _⟩ := reference_lifetime [makeWords, .drop "words"] "word" ⟨0, 0⟩
  refine ⟨hruns wordsRules hbuilt howned _ rfl, rfl, hfails ?_⟩
  rintro ⟨rules, hboth⟩
  have hdropped : (empty.after [makeWords, .drop "words"]).store.table 0 = .dropped := rfl
  cases hdropped.symm.trans ((hthere rules).2 hboth)

end Session

end Descent
