import Descent.Proofs.Tables
import Mathlib.Data.Finset.Card
import Mathlib.Logic.Relation

/-!
# Who keeps a table

A table keeps others: those whose entries its rules hold. In a sound store all tables that are kept are
ready, and no table keeps itself, be it through others. What is left when the rest is dropped are the
tables that can be reached from the parsers at hand (`Store.table_collect`), since the search for them
never runs out of rounds; and it is sound again.
-/

namespace Descent

namespace Store

variable {s s' : Store} {a b id n rounds : Nat} {ids : List Nat} {rules : Array Rule}
  {parsers : List Parser}

/-- A rule of one table holds the entry of another. -/
def Keeps (s : Store) (a b : Nat) : Prop := b ∈ s.keptBy a

/-- Only the rules of a table that is ready hold anything. -/
theorem keeps_iff : s.Keeps a b ↔
    ∃ rules, s.table a = .ready rules ∧ ∃ rule ∈ rules.toList, b ∈ rule.body.kept := by
  unfold Keeps keptBy
  cases htable : s.table a with
  | ready rules => simp
  | forming | dropped => simp

/-- What a table keeps depends on its state alone. -/
theorem keptBy_congr (h : s'.table b = s.table a) : s'.keptBy b = s.keptBy a := by
  simp only [keptBy, h]

/-- Tables are ready. -/
def Ready (s : Store) (ids : List Nat) : Prop := ∀ id ∈ ids, ∃ rules, s.table id = .ready rules

/-- Every table that is kept by another is ready, and none keeps itself, be it through others. -/
structure Sound (s : Store) : Prop where
  kept : ∀ a, s.Ready (s.keptBy a)
  acyclic : ∀ a, ¬ Relation.TransGen s.Keeps a a

/-- No tables are all ready. -/
theorem Ready.nil (s : Store) : s.Ready [] := fun _ hid => by cases hid

/-- A table that is ready has a number. -/
theorem Ready.lt_size (h : s.Ready ids) (hid : id ∈ ids) : id < s.tables.size := by
  obtain ⟨rules, htable⟩ := h id hid
  exact lt_size_of_table_ne (by simp [htable])

/-! ## The search for tables that are kept -/

/-- The search forgets nothing. -/
theorem subset_reach (rounds : Nat) (ids : List Nat) : ids ⊆ s.reach rounds ids := by
  induction rounds generalizing ids with
  | zero => exact fun _ hid => hid
  | succ rounds ih =>
    intro id hid
    unfold reach
    dsimp only
    split
    · exact hid
    · exact ih _ (List.mem_append_left _ hid)

/-- The search finds only what can be reached. -/
theorem exists_of_mem_reach (h : id ∈ s.reach rounds ids) :
    ∃ a ∈ ids, Relation.ReflTransGen s.Keeps a id := by
  induction rounds generalizing ids with
  | zero => exact ⟨id, h, .refl⟩
  | succ rounds ih =>
    unfold reach at h
    dsimp only at h
    split at h
    · exact ⟨id, h, .refl⟩
    · obtain ⟨b, hb, hpath⟩ := ih h
      rcases List.mem_append.1 hb with hb | hb
      · exact ⟨b, hb, hpath⟩
      · obtain ⟨a, ha, hkeeps⟩ := List.mem_flatMap.1 (List.mem_filter.1 (List.mem_eraseDups.1 hb)).1
        exact ⟨a, ha, .head hkeeps hpath⟩

/-- A search with as many rounds as there are tables to be found ends with nothing more to be found.
Each round but the last finds one table at least. -/
theorem reach_closed (hids : ∀ id ∈ ids, id < n) (hkept : ∀ a b, s.Keeps a b → b < n)
    (hrounds : n ≤ ids.toFinset.card + rounds) (ha : a ∈ s.reach rounds ids) (hb : s.Keeps a b) :
    b ∈ s.reach rounds ids := by
  induction rounds generalizing ids with
  | zero =>
    -- Without a round left, all numbers below `n` have been found.
    have hsubset : ids.toFinset ⊆ Finset.range n := fun id hid =>
      Finset.mem_range.2 (hids id (List.mem_toFinset.1 hid))
    have hall := Finset.eq_of_subset_of_card_le hsubset (by simpa using hrounds)
    have hmem : b ∈ ids.toFinset := hall ▸ Finset.mem_range.2 (hkept a b hb)
    exact List.mem_toFinset.1 hmem
  | succ rounds ih =>
    unfold reach at ha ⊢
    dsimp only at ha ⊢
    split
    next hmore =>
      rw [if_pos hmore] at ha
      by_contra hnot
      have hmem : b ∈ (ids.flatMap s.keptBy).filter fun id => !ids.contains id :=
        List.mem_filter.2 ⟨List.mem_flatMap.2 ⟨a, ha, hb⟩, by simpa using hnot⟩
      rw [List.isEmpty_iff.1 hmore] at hmem
      cases hmem
    next hmore =>
      rw [if_neg hmore] at ha
      refine ih (fun id hid => ?_) ?_ ha
      · rcases List.mem_append.1 hid with hid | hid
        · exact hids id hid
        · obtain ⟨c, _, hc⟩ := List.mem_flatMap.1 (List.mem_filter.1 (List.mem_eraseDups.1 hid)).1
          exact hkept c id hc
      · -- The round has found a new number, which makes up for it in the count.
        obtain ⟨new, hnew⟩ := List.exists_mem_of_ne_nil _ (mt List.isEmpty_iff.2 hmore)
        have hold : new ∉ ids := by simpa using (List.mem_filter.1 hnew).2
        have hgrows : ids.toFinset ⊂ (ids ++ ((ids.flatMap s.keptBy).filter fun id =>
            !ids.contains id).eraseDups).toFinset := by
          refine Finset.ssubset_iff_of_subset (fun id hid => ?_) |>.2 ⟨new, ?_, ?_⟩
          · simp only [List.mem_toFinset, List.mem_append] at hid ⊢
            exact .inl hid
          · simp only [List.mem_toFinset, List.mem_append, List.mem_eraseDups]
            exact .inr hnew
          · simpa using hold
        have hcard := Finset.card_lt_card hgrows
        omega

/-- The search finds what can be reached, and nothing else. -/
theorem mem_reach_iff (hs : s.Sound) (hids : s.Ready ids) :
    id ∈ s.reach s.tables.size ids ↔ ∃ a ∈ ids, Relation.ReflTransGen s.Keeps a id := by
  refine ⟨exists_of_mem_reach, ?_⟩
  rintro ⟨a, ha, hpath⟩
  induction hpath with
  | refl => exact subset_reach _ _ ha
  | tail _ hb ih =>
    refine reach_closed (fun _ hid => hids.lt_size hid) (fun a b hkeeps => ?_)
      (Nat.le_add_left _ _) ih hb
    exact (hs.kept a).lt_size hkeeps

/-! ## Dropping what nobody keeps -/

/-- A table can be reached from parsers: one of them holds its entry, or that of a table that keeps
it, be it through others. -/
def ReachedFrom (s : Store) (parsers : List Parser) (id : Nat) : Prop :=
  ∃ p ∈ parsers, ∃ a ∈ p.kept, Relation.ReflTransGen s.Keeps a id

open Classical in
/-- The tables that are left are those that can be reached from the parsers at hand. -/
theorem table_collect (hs : s.Sound) (hparsers : ∀ p ∈ parsers, s.Ready p.kept) (id : Nat) :
    (s.collect parsers).table id = if s.ReachedFrom parsers id then s.table id else .dropped := by
  have hids : s.Ready (parsers.flatMap Parser.kept).eraseDups := fun id hid => by
    obtain ⟨p, hp, hid⟩ := List.mem_flatMap.1 (List.mem_eraseDups.1 hid)
    exact hparsers p hp id hid
  have hreached : id ∈ s.reach s.tables.size (parsers.flatMap Parser.kept).eraseDups ↔
      s.ReachedFrom parsers id := by
    rw [mem_reach_iff hs hids]
    simp only [List.mem_eraseDups, List.mem_flatMap, ReachedFrom]
    constructor
    · rintro ⟨a, ⟨p, hp, ha⟩, hpath⟩
      exact ⟨p, hp, a, ha, hpath⟩
    · rintro ⟨p, hp, a, ha, hpath⟩
      exact ⟨a, ⟨p, hp, ha⟩, hpath⟩
  simp only [collect, Store.table, Array.getElem?_mapIdx, List.contains_iff_mem, hreached]
  cases s.tables[id]? with
  | none => simp
  | some table => simp

/-- A store with the same tables but those that have been dropped since. -/
structure Shrinks (s s' : Store) : Prop where
  size_eq : s'.tables.size = s.tables.size
  table_eq : ∀ id, s'.table id = s.table id ∨ s'.table id = .dropped

/-- Nothing has been dropped. -/
theorem Shrinks.refl (s : Store) : s.Shrinks s := ⟨rfl, fun _ => .inl rfl⟩

/-- Droppings follow each other. -/
theorem Shrinks.trans {s'' : Store} (h : s.Shrinks s') (h' : s'.Shrinks s'') : s.Shrinks s'' where
  size_eq := h'.size_eq.trans h.size_eq
  table_eq id := by
    rcases h'.table_eq id with heq | hdropped
    · rw [heq]
      exact h.table_eq id
    · exact .inr hdropped

/-- A table that is ready after droppings was so before. -/
theorem Shrinks.table_of_ready (h : s.Shrinks s') (hid : s'.table id = .ready rules) :
    s.table id = .ready rules := by
  rcases h.table_eq id with heq | hdropped
  · rw [← heq, hid]
  · rw [hdropped] at hid
    cases hid

section

variable (hs : s.Sound) (hparsers : ∀ p ∈ parsers, s.Ready p.kept)

include hs hparsers

/-- Dropping what nobody keeps only drops. -/
theorem shrinks_collect : s.Shrinks (s.collect parsers) where
  size_eq := by simp [collect]
  table_eq id := by
    rw [table_collect hs hparsers]
    split
    · exact .inl rfl
    · exact .inr rfl

/-- What is left and ready can be reached. -/
theorem reachedFrom_of_ready (hid : (s.collect parsers).table id = .ready rules) :
    s.ReachedFrom parsers id := by
  rw [table_collect hs hparsers] at hid
  split at hid
  · assumption
  · cases hid

/-- A table that is reached and ready stays so. -/
theorem ready_collect (hreached : ∀ id ∈ ids, s.ReachedFrom parsers id) (hids : s.Ready ids) :
    (s.collect parsers).Ready ids := by
  intro id hid
  rw [table_collect hs hparsers, if_pos (hreached id hid)]
  exact hids id hid

/-- What a table keeps after the droppings it kept before, and it can be reached. -/
theorem keeps_of_collect (h : (s.collect parsers).Keeps a b) :
    s.Keeps a b ∧ s.ReachedFrom parsers b := by
  obtain ⟨rules, htable, hrule⟩ := keeps_iff.1 h
  rw [table_collect hs hparsers] at htable
  split at htable
  next hreached =>
    have hkeeps := keeps_iff.2 ⟨rules, htable, hrule⟩
    obtain ⟨p, hp, c, hc, hpath⟩ := hreached
    exact ⟨hkeeps, p, hp, c, hc, hpath.tail hkeeps⟩
  · cases htable

/-- A sound store is sound without the tables that nobody keeps. -/
theorem Sound.collect : (s.collect parsers).Sound where
  kept a := ready_collect hs hparsers (fun _ hb => (keeps_of_collect hs hparsers hb).2)
    fun b hb => hs.kept a b (keeps_of_collect hs hparsers hb).1
  acyclic a hcycle :=
    have hold a b (h : (s.collect parsers).Keeps a b) : s.Keeps a b :=
      (keeps_of_collect hs hparsers h).1
    hs.acyclic a (Relation.TransGen.mono hold _ _ hcycle)

/-- The parsers at hand still keep tables that are ready. -/
theorem ready_collect_of_mem {p : Parser} (hp : p ∈ parsers) : (s.collect parsers).Ready p.kept :=
  ready_collect hs hparsers (fun id hid => ⟨p, hp, id, hid, .refl⟩) (hparsers p hp)

end

end Store

end Descent
