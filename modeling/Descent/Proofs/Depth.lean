import Descent.Proofs.Backtracking
import Descent.Proofs.Repetition
import Mathlib.Data.Finset.Card
import Mathlib.Data.List.ProdSigma

/-!
# The depth that is granted is enough

A run has no result if it goes deeper than it is granted. This cuts no run short that comes to its end:
a parser whose functions leave end parts of texts has a result at the depth that is granted if it has
one at any (`Store.run_eq_some_iff`).

All calls in such a run are calls of some rule on an end part of the text, and of these there are only
as many as there are rules and end parts. When one more level of depth brings an answer to a call, it
brings the answer to one that had none before; so the levels at which anything changes are no more than
the calls, but for those that loops need for their rounds.
-/

namespace Descent

/-- The second text is an end part of the first. -/
def Text.IsEnd (t x : Text) : Prop := x.chars <:+ t.chars

namespace Step

variable {body body' : Step} {t : Text} {limit limit' : Nat}

/-- The successes of a step leave end parts of what it is given. -/
def Shrinks (f : Step) : Prop := ∀ t m x l, f t = some ⟨.success m x, l⟩ → t.IsEnd x

/-- A loop that may go round once for each byte, and once more, answers wherever its body does. -/
theorem many0_belowOn (hlimit : t.size < limit') (hshrinks : Shrinks body)
    (hb : BelowOn t.IsEnd body body') : BelowOn t.IsEnd (many0 limit body) (many0 limit' body') := by
  intro u r hu h
  have hsize : u.size < limit' := Nat.lt_of_le_of_lt (Text.size_le_of_suffix hu) hlimit
  clear hlimit
  induction limit generalizing limit' u r with
  | zero => simp [many0, repeatFrom] at h
  | succ limit ih =>
    obtain ⟨k, rfl⟩ := Nat.exists_eq_add_one_of_ne_zero (Nat.ne_zero_of_lt hsize)
    rcases many0_cases h with ⟨x, l, hB, rfl⟩ | ⟨m, x, l, hB, hx, rfl⟩ |
      ⟨m, x, l, n, y, l', hB, hx, hrest, rfl⟩
    · exact many0_stop k (hb u _ hu hB)
    · exact many0_last k (hb u _ hu hB) hx
    · have hend := hshrinks u m x l hB
      have hle := Text.size_le_of_suffix hend
      exact many0_more (hb u _ hu hB) hx (ih x _ (hend.trans hu) hrest (by omega))

/-- A loop that must go round once, and may go round once for each byte and once more, answers
wherever its body does. -/
theorem many1_belowOn (hlimit : t.size < limit') (hshrinks : Shrinks body)
    (hb : BelowOn t.IsEnd body body') : BelowOn t.IsEnd (many1 limit body) (many1 limit' body') := by
  intro u r hu h
  obtain ⟨k, rfl, hcases⟩ := many1_cases h
  obtain ⟨k', rfl⟩ := Nat.exists_eq_add_one_of_ne_zero (Nat.ne_zero_of_lt hlimit)
  rcases hcases with ⟨x, l, hB, rfl⟩ | ⟨m, x, l, hB, hloop⟩
  · exact many1_of_failure k' (hb u _ hu hB)
  · rw [many1_of_success k' (hb u _ hu hB)]
    exact many0_belowOn hlimit hshrinks hb u r hu hloop

end Step

namespace Store

variable {s : Store} {p : Parser} {t x : Text} {r : Run} {id : RuleId} {rule : Rule}
  {depth depth' : Nat}

/-! ## Parsers answer where calls do -/

/-- Functions leave end parts everywhere in what a call of the rule runs. -/
def Tidy (s : Store) (id : RuleId) : Prop :=
  ∀ rule, s.rule? id = some rule → s.Everywhere Parser.Shrinking rule.body

/-- Wherever tidy calls on end parts of the text have answers at the first depth, they have the same at
the second. -/
def CallsBelow (s : Store) (t : Text) (depth depth' : Nat) : Prop :=
  ∀ id, s.Tidy id → Step.BelowOn t.IsEnd (s.calls depth id) (s.calls depth' id)

/-- What a parser leaves at any depth is an end part. -/
theorem step_shrinks (hp : s.Everywhere Parser.Shrinking p) (depth : Nat) :
    Step.Shrinks (s.step depth p) :=
  fun _ _ _ _ h => (Runs.of_step h).suffix hp rfl

/-- On end parts of a text a parser answers where the calls do, if loops have enough rounds. The
induction is on the parser, since no call is followed. -/
theorem step_belowOn (hp : s.Everywhere Parser.Shrinking p) (hdepth : t.size < depth')
    (hcalls : s.CallsBelow t depth depth') :
    Step.BelowOn t.IsEnd (s.step depth p) (s.step depth' p) := by
  induction p using Parser.induction_on_forms with
  | direct hdirect =>
    intro u r _ h
    rwa [step_of_direct hdirect] at h ⊢
  | @target p id htarget =>
    intro u r hu h
    rw [step_of_target htarget] at h ⊢
    exact hcalls id (fun _ hrule => hp.called htarget hrule) u r hu h
  | expand hexpand ih =>
    intro u r hu h
    rw [step_of_expand hexpand] at h ⊢
    exact ih (hp.expand Parser.shrinking_neutral hexpand) u r hu h
  | joins hjoins iha ihb =>
    obtain ⟨ha, hb⟩ := hp.joins hjoins
    intro u r hu h
    rw [step_of_joins hjoins] at h ⊢
    refine Step.sequence_belowOn (fun v m x l hv hrun => ?_) (iha ha) (ihb hb) u r hu h
    exact (step_shrinks ha depth v m x l hrun).trans hv
  | orElse iha ihb =>
    have ha := iha (hp.child (by simp [Parser.children]))
    have hb := ihb (hp.child (by simp [Parser.children]))
    intro u r hu h
    rw [step_orElse] at h ⊢
    exact Step.orElse_belowOn ha hb u r hu h
  | @many0 body ih =>
    have hbody := hp.child (c := body) (by simp [Parser.children])
    intro u r hu h
    rw [step_many0] at h ⊢
    exact Step.many0_belowOn hdepth (step_shrinks hbody depth) (ih hbody) u r hu h
  | @many1 body ih =>
    have hbody := hp.child (c := body) (by simp [Parser.children])
    intro u r hu h
    rw [step_many1] at h ⊢
    exact Step.many1_belowOn hdepth (step_shrinks hbody depth) (ih hbody) u r hu h
  | @guarded objection body ih =>
    have hbody := ih (hp.child (by simp [Parser.children]))
    intro u r hu h
    rw [step_guarded, Step.guarded] at h ⊢
    cases he : objection u with
    | some e => simpa only [he] using h
    | none => exact hbody u r hu (by simpa only [he] using h)

/-! ## The calls that there are -/

/-- The numbers of the rules in some tables, if the first of them stands under the given number. -/
def idsFrom : Nat → List Table → List RuleId
  | _, [] => []
  | table, head :: tables =>
    (List.range (tableCount head)).map (⟨table, ·⟩) ++ idsFrom (table + 1) tables

/-- Some tables have as many numbers of rules as they hold rules. -/
theorem length_idsFrom (table : Nat) (tables : List Table) :
    (idsFrom table tables).length =
      tables.foldr (fun table count => tableCount table + count) 0 := by
  induction tables generalizing table with
  | nil => rfl
  | cons head tables ih => simp [idsFrom, ih]

/-- All rules of a table are among them. -/
theorem mem_idsFrom (table : Nat) {place slot : Nat} {tables : List Table} {rules : Array Rule}
    (hplace : tables[place]? = some (.ready rules)) (hslot : slot < rules.size) :
    ⟨table + place, slot⟩ ∈ idsFrom table tables := by
  induction tables generalizing table place with
  | nil => cases hplace
  | cons head tables ih =>
    rw [idsFrom, List.mem_append]
    cases place with
    | zero =>
      obtain rfl := Option.some.inj hplace
      exact .inl (List.mem_map_of_mem (List.mem_range.2 hslot))
    | succ place =>
      have hrest := ih (table + 1) hplace
      rw [Nat.add_right_comm] at hrest
      exact .inr hrest

/-- The calls of rules on end parts of a text. -/
def callsOn (s : Store) (t : Text) : Finset (RuleId × Text) :=
  (idsFrom 0 s.tables.toList ×ˢ t.chars.tails.map Text.ofList).toFinset

/-- Every rule can be called on every end part. -/
theorem mem_callsOn (hrule : s.rule? id = some rule) (hx : t.IsEnd x) : (id, x) ∈ s.callsOn t := by
  rw [callsOn, List.mem_toFinset, List.mem_product]
  constructor
  · unfold rule? table at hrule
    cases hget : s.tables[id.table]? with
    | none => simp [hget] at hrule
    | some found =>
      cases found with
      | forming | dropped => simp [hget] at hrule
      | ready rules =>
        simp only [hget, Option.getD_some] at hrule
        obtain ⟨hslot, _⟩ := Array.getElem?_eq_some_iff.1 hrule
        have hmem := mem_idsFrom 0 (Array.getElem?_toList.trans hget) hslot
        rwa [Nat.zero_add] at hmem
  · exact List.mem_map.2 ⟨x.chars, (List.mem_tails ..).2 hx, Text.ofList_chars x⟩

/-- There are no more calls than one of every rule for each byte, and once more. -/
theorem card_callsOn_le (s : Store) (t : Text) :
    (s.callsOn t).card ≤ s.ruleCount * (t.size + 1) := by
  have hlength := t.length_chars_le
  calc (s.callsOn t).card
      ≤ (idsFrom 0 s.tables.toList ×ˢ t.chars.tails.map Text.ofList).length :=
        List.toFinset_card_le _
    _ = s.ruleCount * (t.chars.length + 1) := by
        rw [List.length_product, length_idsFrom, List.length_map, List.length_tails, ruleCount]
    _ ≤ s.ruleCount * (t.size + 1) := Nat.mul_le_mul_left _ (by omega)

/-! ## The calls that have an answer -/

/-- The calls on end parts of a text that have an answer at some depth. -/
def answered (s : Store) (t : Text) (depth : Nat) : Finset (RuleId × Text) :=
  (s.callsOn t).filter fun call => (s.calls depth call.1 call.2).isSome

/-- A call keeps its answer at greater depths. -/
theorem calls_mono (hdepth : depth ≤ depth') (h : s.calls depth id x = some r) :
    s.calls depth' id x = some r := by
  have hstep : s.step depth (.reference "" id) x = some r := by rwa [step_of_target rfl]
  have hstep' := step_mono hdepth hstep
  rwa [step_of_target rfl] at hstep'

/-- A call of a rule that is not there has the same answer at every depth but zero. -/
theorem calls_of_missing (hrule : s.rule? id = none) :
    s.calls (depth + 1) id x = s.calls (depth' + 1) id x := by
  by_cases hid : s.table id.table = .dropped
  · rw [calls, calls, call_of_dropped hid, call_of_dropped hid]
  · rw [calls, calls, call_of_missing hid hrule, call_of_missing hid hrule]

/-- A call of a rule that is there answers where its body does, one level deeper. -/
theorem calls_succ_belowOn (hrule : s.rule? id = some rule) (htidy : s.Tidy id)
    (hdepth : t.size < depth') (hcalls : s.CallsBelow t depth depth') :
    Step.BelowOn t.IsEnd (s.calls (depth + 1) id) (s.calls (depth' + 1) id) := by
  intro x r hx h
  rw [calls, call_of_rule hrule] at h ⊢
  exact Step.rule_belowOn rule.name (step_belowOn (htidy rule hrule) hdepth hcalls) x r hx h

/-- Among the calls are those that have an answer. -/
theorem mem_answered (hrule : s.rule? id = some rule) (hx : t.IsEnd x) :
    (id, x) ∈ s.answered t depth ↔ (s.calls depth id x).isSome := by
  rw [answered, Finset.mem_filter, and_iff_right (mem_callsOn hrule hx)]

/-- A greater depth brings answers to more calls. -/
theorem answered_mono (s : Store) (t : Text) (depth : Nat) :
    s.answered t depth ⊆ s.answered t (depth + 1) := by
  intro call hcall
  rw [answered, Finset.mem_filter] at hcall ⊢
  obtain ⟨r, hr⟩ := Option.isSome_iff_exists.1 hcall.2
  exact ⟨hcall.1, Option.isSome_iff_exists.2 ⟨r, calls_mono (Nat.le_succ depth) hr⟩⟩

/-- More calls are answered as soon as one has an answer that it did not have before. -/
theorem card_answered_lt (hrule : s.rule? id = some rule) (hx : t.IsEnd x)
    (hbefore : ¬(s.calls depth id x).isSome) (hafter : s.calls (depth + 1) id x = some r) :
    (s.answered t depth).card < (s.answered t (depth + 1)).card := by
  have hsubset := s.answered_mono t depth
  refine Finset.card_lt_card ((Finset.ssubset_iff_of_subset hsubset).2 ⟨(id, x), ?_, ?_⟩)
  · exact (mem_answered hrule hx).2 (Option.isSome_iff_exists.2 ⟨r, hafter⟩)
  · exact fun hmem => hbefore ((mem_answered hrule hx).1 hmem)

/-- A call needs no more depth than there are calls with an answer, and bytes for the rounds of loops.
Either the call has had its answer before; or it is one call more, and one level more than its body
needs. -/
theorem callsBelow_answered (s : Store) (t : Text) (depth : Nat) :
    s.CallsBelow t depth ((s.answered t depth).card + t.size + 1) := by
  induction depth with
  | zero =>
    intro id _ x r _ h
    cases h
  | succ depth ih =>
    intro id htidy x r hx h
    cases hrule : s.rule? id with
    | none => rwa [calls_of_missing hrule] at h
    | some rule =>
      by_cases hbefore : (s.calls depth id x).isSome
      · obtain ⟨r', hr'⟩ := Option.isSome_iff_exists.1 hbefore
        obtain rfl := Option.some.inj ((calls_mono (Nat.le_succ depth) hr').symm.trans h)
        have hcard := Finset.card_le_card (s.answered_mono t depth)
        exact calls_mono (by omega) (ih id htidy x _ hx hr')
      · have hcard := card_answered_lt hrule hx hbefore h
        exact calls_mono (by omega) (calls_succ_belowOn hrule htidy (by omega) ih x r hx h)

/-- A run is granted more depth than that. -/
theorem card_answered_add_le_depthFor (s : Store) (t : Text) (depth : Nat) :
    (s.answered t depth).card + t.size + 1 ≤ s.depthFor t := by
  have hcard : (s.answered t depth).card ≤ s.ruleCount * (t.size + 1) :=
    (Finset.card_le_card (Finset.filter_subset _ _)).trans (s.card_callsOn_le t)
  calc (s.answered t depth).card + t.size + 1
      ≤ s.ruleCount * (t.size + 1) + 0x100000000 * (t.size + 1) := by omega
    _ = (s.ruleCount + 0x100000000) * (t.size + 1) := (Nat.add_mul ..).symm
    _ ≤ s.depthFor t := Nat.mul_le_mul_left _ (by omega)

/-- A parser whose functions leave end parts has a result at the depth that is granted exactly if it
comes to its end. -/
theorem run_eq_some_iff (hp : s.Everywhere Parser.Shrinking p) :
    s.run p t = some r ↔ s.Runs p t r := by
  refine ⟨Runs.of_step, fun h => ?_⟩
  obtain ⟨depth, hstep⟩ := h.exists_step
  have henough := step_belowOn hp (by omega) (s.callsBelow_answered t depth) t r List.suffix_rfl hstep
  exact step_mono (s.card_answered_add_le_depthFor t depth) henough

end Store

end Descent
