import Descent.Proofs.Part

/-!
# Parsers that keep every match

Two sequences drop the match of one of their parts. A parser keeps every match once these sequences
join both matches as others do, everywhere in the parser and in the rules of the store. Whether a run
succeeds and where it ends does not change by this, since choices, loops and sequences look at what a
part leaves, and never at what it has matched; a success only has more in its match
(`Store.step_thins`).
-/

namespace Descent

/-! ## Keeping every match -/

namespace Parser

/-- The parser that keeps every match: where one of two matches is dropped, it joins them. -/
def keepAll : Parser → Parser
  | many0 body => many0 body.keepAll
  | many1 body => many1 body.keepAll
  | exactly count body => exactly count body.keepAll
  | between inner opening closing => between inner.keepAll opening.keepAll closing.keepAll
  | orElse a b => orElse a.keepAll b.keepAll
  | andThen a b => andThen a.keepAll b.keepAll
  | thenOptional a b => thenOptional a.keepAll b.keepAll
  | optionalThen a b => optionalThen a.keepAll b.keepAll
  | thenIgnore a b => andThen a.keepAll b.keepAll
  | ignoreThen a b => andThen a.keepAll b.keepAll
  | named name body => named name body.keepAll
  | guarded objection body => guarded objection body.keepAll
  | p => p

/-- A parser that is none of the two sequences that drop a match. -/
def Keeping : Parser → Prop
  | thenIgnore .. => False
  | ignoreThen .. => False
  | _ => True

variable {p : Parser}

/-- What keeps every match is not one that drops any. -/
theorem keeping_keepAll (p : Parser) : p.keepAll.Keeping := by
  cases p <;> trivial

/-- A parser that keeps every match is put together from the same parts, which keep every match. -/
theorem children_keepAll (p : Parser) : p.keepAll.children = p.children.map keepAll := by
  cases p <;> rfl

/-- Where nothing is dropped, nothing changes. -/
theorem keepAll_of_keeping (hp : p.All Keeping) : p.keepAll = p := by
  induction p with
  | many0 body ih | many1 body ih | exactly count body ih | named name body ih
  | guarded objection body ih => rw [keepAll, ih hp.2]
  | between inner opening closing ihInner ihOpening ihClosing =>
    rw [keepAll, ihInner hp.2.1, ihOpening hp.2.2.1, ihClosing hp.2.2.2]
  | orElse a b iha ihb | andThen a b iha ihb | thenOptional a b iha ihb
  | optionalThen a b iha ihb => rw [keepAll, iha hp.2.1, ihb hp.2.2]
  | thenIgnore a b | ignoreThen a b => exact hp.1.elim
  | _ => rfl

end Parser

/-- The rule whose body keeps every match. -/
def Rule.keepAll (rule : Rule) : Rule := ⟨rule.name, rule.body.keepAll⟩

/-- The table whose rules keep every match. -/
def Table.keepAll : Table → Table
  | .forming => .forming
  | .ready rules => .ready (rules.map Rule.keepAll)
  | .dropped => .dropped

namespace Store

/-- The store in whose rules every match is kept. -/
def keepAll (s : Store) : Store := ⟨s.tables.map Table.keepAll⟩

/-- Every table keeps its number. -/
theorem table_keepAll (s : Store) (id : Nat) : s.keepAll.table id = (s.table id).keepAll := by
  unfold keepAll table
  rw [Array.getElem?_map]
  cases s.tables[id]? <;> rfl

/-- Every rule keeps its place. -/
theorem rule?_keepAll (s : Store) (id : RuleId) :
    s.keepAll.rule? id = (s.rule? id).map Rule.keepAll := by
  unfold rule?
  rw [table_keepAll]
  cases s.table id.table with
  | forming | dropped => rfl
  | ready rules => exact Array.getElem?_map

/-- A store that keeps every match has as many rules as before. -/
theorem ruleCount_keepAll (s : Store) : s.keepAll.ruleCount = s.ruleCount := by
  have hcount (table : Table) : tableCount table.keepAll = tableCount table := by
    cases table with
    | forming | dropped => rfl
    | ready rules => exact Array.size_map
  simp only [ruleCount, keepAll, Array.toList_map, List.foldr_map, hcount]

/-- A run is granted the same depth in a store that keeps every match. -/
theorem depthFor_keepAll (s : Store) (t : Text) : s.keepAll.depthFor t = s.depthFor t := by
  rw [depthFor, depthFor, ruleCount_keepAll]

/-- Nothing is dropped any more, neither in the parser nor in a rule that it calls. -/
theorem everywhere_keeping (s : Store) (p : Parser) :
    s.keepAll.Everywhere Parser.Keeping p.keepAll := by
  -- Parts and rules of what keeps every match are of this form again, whichever they are.
  refine .of_invariant (fun q => ∃ p : Parser, q = p.keepAll) ⟨p, rfl⟩ ?_ ?_ ?_
  · rintro _ ⟨p, rfl⟩ c hc
    rw [p.children_keepAll] at hc
    obtain ⟨d, _, rfl⟩ := List.mem_map.1 hc
    exact ⟨d, rfl⟩
  · rintro _ id rule ⟨p, rfl⟩ _ hrule
    rw [rule?_keepAll] at hrule
    obtain ⟨old, _, rfl⟩ := Option.map_eq_some_iff.1 hrule
    exact ⟨old.body, rfl⟩
  · rintro _ ⟨p, rfl⟩
    exact p.keeping_keepAll

end Store

/-! ## Runs with less in their match -/

/-- One run ends as the other does, with the same log, and leaves the same text; if they succeed, the
first has matched some of the characters that the second has, in the same order. -/
inductive Run.Thinner : Run → Run → Prop
  | failure (rest : Text) (log : Log) : Thinner ⟨.failure rest, log⟩ ⟨.failure rest, log⟩
  | success {m n : List Char} (hmatch : m.Sublist n) (rest : Text) (log : Log) :
    Thinner ⟨.success m rest, log⟩ ⟨.success n rest, log⟩

/-- A run has all of its own match. -/
theorem Run.Thinner.refl (r : Run) : r.Thinner r := by
  obtain ⟨o, l⟩ := r
  cases o with
  | failure x => exact .failure x l
  | success m x => exact .success (.refl m) x l

/-- Related results are followed by related results, if each of them is. -/
theorem rel_bind {α α' β β' : Type} {before : α → α' → Prop} {after : β → β' → Prop}
    {x : Option α} {x' : Option α'} {f : α → Option β} {f' : α' → Option β'}
    (hx : Option.Rel before x x') (hf : ∀ y y', before y y' → Option.Rel after (f y) (f' y')) :
    Option.Rel after (x.bind f) (x'.bind f') := by
  cases hx with
  | none => exact .none
  | some hy => exact hf _ _ hy

namespace Step

/-- Wherever one step has a result, the other has one, with at least as much in its match. -/
def Thins (f f' : Step) : Prop := ∀ t, Option.Rel Run.Thinner (f t) (f' t)

variable {a a' b b' body body' : Step}

namespace Thins

/-- A step by a function has all of its own match. -/
theorem quiet (f : Text → Outcome) : Thins (quiet f) (quiet f) := fun _ => .some (.refl _)

/-- In a choice the second step decides where the first has failed, on either side. -/
theorem orElse (ha : Thins a a') (hb : Thins b b') : Thins (orElse a b) (orElse a' b') := by
  refine fun t => rel_bind (ha t) fun _ _ h => ?_
  cases h with
  | success hm x l => exact .some (.success hm x l)
  | failure x l =>
    refine rel_bind (hb t) fun _ _ h => ?_
    cases h with
    | success hn y l' => exact .some (.success hn y _)
    | failure y l' => exact .some (.failure y _)

/-- A sequence that joins both matches has at least as much in its match as one that makes something
less of them. -/
theorem sequence {keep : List Char → List Char → List Char} (ha : Thins a a') (hb : Thins b b')
    (hkeep : ∀ {m m' n n' : List Char}, m.Sublist m' → n.Sublist n' →
      (keep m n).Sublist (m' ++ n')) :
    Thins (sequence keep a b) (sequence (· ++ ·) a' b') := by
  refine fun t => rel_bind (ha t) fun _ _ h => ?_
  cases h with
  | failure x l => exact .some (.failure t l)
  | success hm x l =>
    refine rel_bind (hb x) fun _ _ h => ?_
    cases h with
    | failure y l' => exact .some (.failure t _)
    | success hn y l' => exact .some (.success (hkeep hm hn) y _)

/-- A sequence that joins both matches is one of these. -/
theorem andThen (ha : Thins a a') (hb : Thins b b') :
    Thins (Step.sequence (· ++ ·) a b) (Step.sequence (· ++ ·) a' b') :=
  ha.sequence hb List.Sublist.append

/-- A count goes round as often on either side. -/
theorem exactly (count : Nat) (hbody : Thins body body') :
    Thins (exactly count body) (exactly count body') := by
  induction count with
  | zero => exact fun _ => .some (.refl _)
  | succ count ih =>
    rw [exactly_succ, exactly_succ]
    exact hbody.andThen ih

end Thins

/-- Two loops have gone round as often, are at the same place and have the same log, and the first has
matched some of what the second has. -/
inductive Repetition.Thinner : Repetition → Repetition → Prop
  | intro (count : Nat) {m n : List Char} (hmatch : m.Sublist n) (rest : Text) (log : Log) :
    Thinner ⟨count, m, rest, log⟩ ⟨count, n, rest, log⟩

variable {past past' : Repetition}

/-- One more round leaves it so. -/
theorem Repetition.Thinner.add (h : past.Thinner past') {m n : List Char} (hmatch : m.Sublist n)
    (rest : Text) (log : Log) : (past.add m rest log).Thinner (past'.add n rest log) := by
  obtain ⟨count, hpast, _, before⟩ := h
  exact .intro (count + 1) (hmatch.reverse.append hpast) rest (log.reverse ++ before)

/-- Loops that end after these rounds have matched what they have. -/
theorem Repetition.Thinner.succeed (h : past.Thinner past') : past.succeed.Thinner past'.succeed := by
  obtain ⟨_, hpast, rest, log⟩ := h
  exact .success hpast.reverse rest log.reverse

namespace Thins

/-- A loop stops for what its body leaves, so that it goes round as often on either side. -/
theorem repeatFrom (limit : Nat) (hbody : Thins body body') (h : past.Thinner past') :
    Option.Rel Repetition.Thinner (repeatFrom body limit past) (repeatFrom body' limit past') := by
  induction limit generalizing past past' with
  | zero => exact .none
  | succ limit ih =>
    obtain ⟨count, hpast, rest, log⟩ := h
    have hround := hbody rest
    simp only [Step.repeatFrom]
    generalize body rest = round, body' rest = round' at hround
    cases hround with
    | none => exact .none
    | some hround =>
      cases hround with
      | failure x l => exact .some (.intro count hpast rest _)
      | success hm x l =>
        have hnext := Repetition.Thinner.add (.intro count hpast rest log) hm x l
        dsimp only
        -- The test is the same on either side, since it is about `x` and the text before it.
        split
        · exact .some hnext
        · exact ih hnext

/-- A loop as a whole stops for what its body leaves. -/
theorem many0 (limit : Nat) (hbody : Thins body body') :
    Thins (many0 limit body) (many0 limit body') := fun t =>
  rel_bind (hbody.repeatFrom limit (.intro 0 (.refl []) t [])) fun _ _ h => .some h.succeed

/-- A loop that must go round once fails on either side if it has not done so. -/
theorem many1 (limit : Nat) (hbody : Thins body body') :
    Thins (many1 limit body) (many1 limit body') := by
  refine fun t => rel_bind (hbody.repeatFrom limit (.intro 0 (.refl []) t [])) fun _ _ h => ?_
  have hsucceed := h.succeed
  obtain ⟨count, hpast, rest, log⟩ := h
  dsimp only
  split
  · exact .some (.failure t _)
  · exact .some hsucceed

/-- An objection is raised against the text, before anything is matched. -/
theorem guarded (objection : Text → Option Event) (hbody : Thins body body') :
    Thins (guarded objection body) (guarded objection body') := by
  intro t
  unfold Step.guarded
  cases objection t with
  | none => exact hbody t
  | some event => exact .some (.failure t _)

/-- The events around a rule do not tell what it has matched. -/
theorem rule (name : String) (hbody : Thins body body') :
    Thins (rule name body) (rule name body') := by
  refine fun t => rel_bind (hbody t) fun _ _ h => ?_
  cases h with
  | failure x l => exact .some (.failure x _)
  | success hm x l => exact .some (.success hm x _)

end Thins

end Step

namespace Parser

/-- What a parser means, given what calls of rules mean. -/
theorem meaning_thins (limit : Nat) {call call' : RuleId → Step}
    (hcall : ∀ id, Step.Thins (call id) (call' id)) (p : Parser) :
    Step.Thins (p.meaning limit call) (p.keepAll.meaning limit call') := by
  have hempty : Step.Thins (Step.quiet (.success [])) (Step.quiet (.success [])) := .quiet _
  induction p with
  | many0 body ih => exact .many0 limit ih
  | many1 body ih => exact .many1 limit ih
  | exactly count body ih => exact .exactly count ih
  | between inner opening closing ihInner ihOpening ihClosing =>
    change Step.Thins (Step.between _ _ _) (Step.between _ _ _)
    rw [Step.between_eq, Step.between_eq]
    exact (ihOpening.andThen ihInner).andThen ihClosing
  | orElse a b iha ihb => exact .orElse iha ihb
  | andThen a b iha ihb => exact .andThen iha ihb
  | thenOptional a b iha ihb =>
    change Step.Thins (Step.thenOptional _ _) (Step.thenOptional _ _)
    rw [Step.thenOptional_eq, Step.thenOptional_eq]
    exact iha.andThen (ihb.orElse hempty)
  | optionalThen a b iha ihb =>
    change Step.Thins (Step.optionalThen _ _) (Step.optionalThen _ _)
    rw [Step.optionalThen_eq, Step.optionalThen_eq]
    exact (iha.orElse hempty).andThen ihb
  | thenIgnore a b iha ihb =>
    exact iha.sequence ihb fun hm _ => hm.trans (List.sublist_append_left ..)
  | ignoreThen a b iha ihb =>
    exact iha.sequence ihb fun _ hn => hn.trans (List.sublist_append_right ..)
  | named name body ih => exact ih
  | guarded objection body ih => exact .guarded objection ih
  | reference name id => exact hcall id
  | entry name id => exact hcall id
  | _ => exact .quiet _

end Parser

namespace Store

variable {run run' : Parser → Step}

/-- A call finds the same rule, or its absence. -/
theorem call_thins (s : Store) (hrun : ∀ p, Step.Thins (run p) (run' p.keepAll)) (id : RuleId) :
    Step.Thins (s.call run id) (s.keepAll.call run' id) := by
  intro t
  by_cases hid : s.table id.table = .dropped
  · have hid' : s.keepAll.table id.table = .dropped := by rw [table_keepAll, hid, Table.keepAll]
    rw [call_of_dropped hid, call_of_dropped hid']
    exact .some (.failure t _)
  · have hid' : s.keepAll.table id.table ≠ .dropped := by
      rw [table_keepAll]
      cases htable : s.table id.table with
      | dropped => exact absurd htable hid
      | forming | ready => exact Table.noConfusion
    cases hrule : s.rule? id with
    | none =>
      have hrule' : s.keepAll.rule? id = none := by rw [rule?_keepAll, hrule, Option.map_none]
      rw [call_of_missing hid hrule, call_of_missing hid' hrule']
      exact .some (.failure t _)
    | some rule =>
      have hrule' : s.keepAll.rule? id = some rule.keepAll := by
        rw [rule?_keepAll, hrule, Option.map_some]
      rw [call_of_rule hrule, call_of_rule hrule']
      exact Step.Thins.rule rule.name (hrun rule.body) t

/-- At every depth a parser succeeds or fails, and leaves what it leaves, whether it keeps every match
or not. -/
theorem step_thins (s : Store) (depth : Nat) (p : Parser) :
    Step.Thins (s.step depth p) (s.keepAll.step depth p.keepAll) := by
  induction depth generalizing p with
  | zero => exact p.meaning_thins 0 fun _ _ => .none
  | succ depth ih => exact p.meaning_thins (depth + 1) (s.call_thins ih)

/-- At the depth that is granted a parser succeeds or fails, and leaves what it leaves, whether it
keeps every match or not. -/
theorem run_thins (s : Store) (p : Parser) : Step.Thins (s.run p) (s.keepAll.run p.keepAll) := by
  intro t
  rw [run, run, depthFor_keepAll]
  exact s.step_thins _ p t

end Store

end Descent
