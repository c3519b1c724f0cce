import Descent.Proofs.Backtracking

/-!
# Runs that end

A rule is a head of another if the other may call it before it has taken anything. Where the rules
of a table only call each other and heads stand in a lower layer, every run ends: a call either goes
to a lower layer or starts on a shorter text, and a loop takes something each time it goes on. The
depth that a run is granted is enough for this (`Store.Layered.run_isSome`).
-/

namespace Descent

namespace Step

variable {a b body : Step} {t : Text} {limit : Nat}

/-- A choice ends where both of its steps do. -/
theorem orElse_isSome (ha : (a t).isSome) (hb : (b t).isSome) : (orElse a b t).isSome := by
  obtain ⟨first, ha⟩ := Option.isSome_iff_exists.1 ha
  obtain ⟨second, hb⟩ := Option.isSome_iff_exists.1 hb
  cases hok : first.outcome.ok <;> simp [orElse, ha, hb, hok]

/-- A sequence ends if its first step does, and its second step wherever the first succeeds. -/
theorem sequence_isSome {keep : List Char → List Char → List Char} (ha : (a t).isSome)
    (hb : ∀ m x l, a t = some ⟨.success m x, l⟩ → (b x).isSome) :
    (sequence keep a b t).isSome := by
  obtain ⟨⟨o, l⟩, ha⟩ := Option.isSome_iff_exists.1 ha
  cases o with
  | failure x => simp [sequence, ha]
  | success m x =>
    obtain ⟨⟨o', l'⟩, hb⟩ := Option.isSome_iff_exists.1 (hb m x l ha)
    cases o' <;> simp [sequence, ha, hb]

/-- A loop that may go on for more rounds than there are bytes ends where its body does. -/
theorem many0_isSome (hlimit : t.size < limit) (hbody : ∀ x, x.size ≤ t.size → (body x).isSome)
    (hshrinks : ∀ t m x l, body t = some ⟨.success m x, l⟩ → x.size ≤ t.size) :
    ∃ m x l, many0 limit body t = some ⟨.success m x, l⟩ := by
  induction limit generalizing t with
  | zero => exact absurd hlimit (Nat.not_lt_zero _)
  | succ limit ih =>
    obtain ⟨⟨o, l⟩, hb⟩ := Option.isSome_iff_exists.1 (hbody t (Nat.le_refl _))
    cases o with
    | failure x => exact ⟨_, _, _, many0_stop limit hb⟩
    | success m x =>
      by_cases hx : x.size = 0 ∨ x.size = t.size
      · exact ⟨_, _, _, many0_last limit hb hx⟩
      · have hle := hshrinks t m x l hb
        have hlt : x.size < t.size := by omega
        obtain ⟨n, y, l', hrest⟩ := ih (t := x) (by omega) fun z hz => hbody z (by omega)
        exact ⟨_, _, _, many0_more hb hx hrest⟩

/-- A loop that must go round once ends under the same conditions. -/
theorem many1_isSome (hlimit : t.size < limit) (hbody : ∀ x, x.size ≤ t.size → (body x).isSome)
    (hshrinks : ∀ t m x l, body t = some ⟨.success m x, l⟩ → x.size ≤ t.size) :
    (many1 limit body t).isSome := by
  obtain ⟨limit, rfl⟩ := Nat.exists_eq_succ_of_ne_zero (Nat.ne_zero_of_lt hlimit)
  obtain ⟨⟨o, l⟩, hb⟩ := Option.isSome_iff_exists.1 (hbody t (Nat.le_refl _))
  cases o with
  | failure x => simp [many1_of_failure limit hb]
  | success m x =>
    obtain ⟨n, y, l', hloop⟩ := many0_isSome hlimit hbody hshrinks
    simp [many1_of_success limit hb, hloop]

end Step

namespace Store

variable {s : Store} {table depth n k : Nat} {heads heads' : RuleId → Prop} {a b p q : Parser}
  {t x : Text} {id : RuleId} {rules : Array Rule} {rank : Nat → Nat} {layers : Nat}

/-! ## Heads -/

/-- The parser may succeed without taking anything. -/
def Idle (s : Store) (p : Parser) : Prop :=
  ∃ t m x l, s.Runs p t ⟨.success m x, l⟩ ∧ x.size = t.size

/-- The parser may call the rule before it has taken anything. -/
def Heads (s : Store) : Parser → RuleId → Prop
  | .many0 body, id => s.Heads body id
  | .many1 body, id => s.Heads body id
  | .exactly _ body, id => s.Heads body id
  | .between inner opening closing, id =>
    s.Heads opening id ∨ s.Idle opening ∧ (s.Heads inner id ∨ s.Idle inner ∧ s.Heads closing id)
  | .orElse a b, id => s.Heads a id ∨ s.Heads b id
  | .andThen a b, id => s.Heads a id ∨ s.Idle a ∧ s.Heads b id
  | .thenOptional a b, id => s.Heads a id ∨ s.Idle a ∧ s.Heads b id
  | .optionalThen a b, id => s.Heads a id ∨ s.Heads b id
  | .thenIgnore a b, id => s.Heads a id ∨ s.Idle a ∧ s.Heads b id
  | .ignoreThen a b, id => s.Heads a id ∨ s.Idle a ∧ s.Heads b id
  | .named _ body, id => s.Heads body id
  | .guarded _ body, id => s.Heads body id
  | .reference _ rule, id => id = rule
  | .entry _ rule, id => id = rule
  | _, _ => False

/-- A sequence has the heads of its first part, and those of its second part if the first may take
nothing. -/
theorem heads_of_joins {keep : List Char → List Char → List Char} (hp : Parser.Joins keep a b p) :
    s.Heads p id ↔ s.Heads a id ∨ s.Idle a ∧ s.Heads b id := by
  cases hp <;> exact Iff.rfl

/-- The rule that a parser calls by itself is a head. -/
theorem heads_of_target (hp : p.target? = some id) : s.Heads p id := by
  cases p <;> cases hp <;> rfl

/-- What rules need of the parsers in their bodies: functions leave suffixes, and all calls stay
inside the table. -/
def Inside (table : Nat) (p : Parser) : Prop := p.Shrinking ∧ p.CallsInto table

/-- Sequences, choices, counts and the empty text stay inside any table. -/
theorem inside_neutral : Parser.Neutral (Inside table) := by
  have hno (id : RuleId) : (none : Option RuleId) ≠ some id := fun h => by cases h
  exact ⟨fun _ _ => ⟨trivial, fun id h => absurd h (hno id)⟩,
    fun _ _ => ⟨trivial, fun id h => absurd h (hno id)⟩,
    fun _ _ => ⟨trivial, fun id h => absurd h (hno id)⟩,
    ⟨trivial, fun id h => absurd h (hno id)⟩⟩

/-- A ready table whose rules only call each other, and whose rules have their heads in lower
layers. -/
structure Layered (s : Store) (table : Nat) (rules : Array Rule) (rank : Nat → Nat)
    (layers : Nat) : Prop where
  ready : s.table table = .ready rules
  inside : ∀ rule ∈ rules.toList, rule.body.All (Inside table)
  descends : ∀ slot rule, rules[slot]? = some rule → ∀ id, s.Heads rule.body id →
    rank id.slot < rank slot
  bounded : ∀ slot, rank slot < layers

/-! ## Calls that end -/

/-- Calls of the table's rules end on texts of less than `n` bytes, and those of the given heads
also on texts of `n` bytes. -/
def CallsEnd (s : Store) (depth table n : Nat) (heads : RuleId → Prop) : Prop :=
  ∀ id t, id.table = table → t.size < n ∨ t.size = n ∧ heads id → (s.calls depth id t).isSome

/-- On shorter texts all calls end, and on texts of the same size those of the same heads. -/
theorem CallsEnd.le (h : s.CallsEnd depth table n heads) (hk : k ≤ n)
    (hheads : k = n → ∀ id, heads' id → heads id) : s.CallsEnd depth table k heads' := by
  rintro id t hid (ht | ⟨rfl, hhead⟩)
  · exact h id t hid (.inl (by omega))
  · by_cases hn : t.size = n
    · exact h id t hid (.inr ⟨hn, hheads hn id hhead⟩)
    · exact h id t hid (.inl (by omega))

namespace Layered

/-- Functions leave suffixes everywhere in a parser that stays inside the table. -/
theorem shrinking (h : s.Layered table rules rank layers) (hp : p.All (Inside table)) :
    s.Everywhere Parser.Shrinking p :=
  .of_table h.ready hp h.inside

/-- A success leaves no more than it was given. -/
theorem size_le (h : s.Layered table rules rank layers) (hp : p.All (Inside table))
    {m : List Char} {l : Log} (hrun : s.step depth p t = some ⟨.success m x, l⟩) :
    x.size ≤ t.size :=
  (Runs.of_step hrun).size_le (h.shrinking hp)

/-- A sequence ends if its parts do. Its second part starts where the first has ended; unless that
is on a shorter text, the heads of the second part are heads of the sequence. -/
theorem sequence_isSome (h : s.Layered table rules rank layers)
    {keep : List Char → List Char → List Char} (hpa : a.All (Inside table))
    (ha : (s.step depth a t).isSome)
    (hb : ∀ x, x.size ≤ t.size → (x.size = t.size → s.Idle a) → (s.step depth b x).isSome) :
    (Step.sequence keep (s.step depth a) (s.step depth b) t).isSome := by
  refine Step.sequence_isSome ha fun m x l hrun => ?_
  exact hb x (h.size_le hpa hrun) fun hx => ⟨t, m, x, l, .of_step hrun, hx⟩

/-- A sequence that takes nothing has parts that take nothing. -/
theorem idle_andThen (h : s.Layered table rules rank layers) (ha : a.All (Inside table))
    (hb : b.All (Inside table)) (hidle : s.Idle (.andThen a b)) : s.Idle a ∧ s.Idle b := by
  obtain ⟨t, m, y, l, hrun, hy⟩ := hidle
  rcases hrun.joins_cases (.andThen a b) with ⟨_, _, _, hfail⟩ | ⟨_, _, _, _, _, _, _, hfail⟩ |
    ⟨m, x, l, n, y', l', hruna, hrunb, hsuccess⟩
  · cases hfail
  · cases hfail
  · cases hsuccess
    have hx := hruna.size_le (h.shrinking ha)
    have hxy := hrunb.size_le (h.shrinking hb)
    exact ⟨⟨t, m, x, l, hruna, by omega⟩, ⟨x, n, y, l', hrunb, by omega⟩⟩

/-- The simpler form of a parser has no more heads. -/
theorem heads_of_expand (h : s.Layered table rules rank layers) (hp : p.All (Inside table))
    (hexpand : p.expand? = some q) (hq : s.Heads q id) : s.Heads p id := by
  cases p with
  | exactly count body =>
    cases count with
    | zero =>
      cases Option.some.inj hexpand
      exact hq.elim
    | succ count =>
      cases Option.some.inj hexpand
      rcases hq with hbody | ⟨_, hbody⟩
      · exact hbody
      · exact hbody
  | between inner opening closing =>
    cases Option.some.inj hexpand
    rcases hq with (hopening | hinner) | ⟨hidle, hclosing⟩
    · exact .inl hopening
    · exact .inr ⟨hinner.1, .inl hinner.2⟩
    · obtain ⟨hidleOpening, hidleInner⟩ := h.idle_andThen hp.2.2.1 hp.2.1 hidle
      exact .inr ⟨hidleOpening, .inr ⟨hidleInner, hclosing⟩⟩
  | thenOptional a b =>
    cases Option.some.inj hexpand
    rcases hq with ha | ⟨hidle, hb | hempty⟩
    · exact .inl ha
    · exact .inr ⟨hidle, hb⟩
    · exact hempty.elim
  | optionalThen a b =>
    cases Option.some.inj hexpand
    rcases hq with (ha | hempty) | ⟨_, hb⟩
    · exact .inl ha
    · exact hempty.elim
    · exact .inr hb
  | named name body =>
    cases Option.some.inj hexpand
    exact hq
  | _ => cases hexpand

/-- A parser ends where the calls of its heads end, and all calls on shorter texts. The induction is
on the parser, since no call is followed. -/
theorem step_isSome (h : s.Layered table rules rank layers) (hp : p.All (Inside table))
    (ht : t.size < depth) (hcalls : s.CallsEnd depth table t.size (s.Heads p)) :
    (s.step depth p t).isSome := by
  induction p using Parser.induction_on_forms generalizing t with
  | direct hdirect =>
    rw [step_of_direct hdirect]
    rfl
  | @target p id htarget =>
    rw [step_of_target htarget]
    exact hcalls id t (hp.self.2 id htarget) (.inr ⟨rfl, heads_of_target htarget⟩)
  | expand hexpand ih =>
    rw [step_of_expand hexpand]
    refine ih (hp.expand inside_neutral hexpand) ht (hcalls.le (Nat.le_refl _) fun _ _ hid => ?_)
    exact h.heads_of_expand hp hexpand hid
  | joins hjoins iha ihb =>
    obtain ⟨ha, hb⟩ := hp.joins hjoins
    rw [step_of_joins hjoins]
    refine h.sequence_isSome ha ?_ fun x hx hidle => ?_
    · exact iha ha ht (hcalls.le (Nat.le_refl _) fun _ _ hid =>
        (heads_of_joins hjoins).2 (.inl hid))
    · exact ihb hb (by omega) (hcalls.le hx fun heq _ hid =>
        (heads_of_joins hjoins).2 (.inr ⟨hidle heq, hid⟩))
  | orElse iha ihb =>
    rw [step_orElse]
    exact Step.orElse_isSome (iha hp.2.1 ht (hcalls.le (Nat.le_refl _) fun _ _ => .inl))
      (ihb hp.2.2 ht (hcalls.le (Nat.le_refl _) fun _ _ => .inr))
  | many0 ih =>
    rw [step_many0]
    obtain ⟨m, x, l, hloop⟩ := Step.many0_isSome ht
      (fun x hx => ih hp.2 (by omega) (hcalls.le hx fun _ _ => id)) fun _ _ _ _ => h.size_le hp.2
    simp [hloop]
  | many1 ih =>
    rw [step_many1]
    exact Step.many1_isSome ht
      (fun x hx => ih hp.2 (by omega) (hcalls.le hx fun _ _ => id)) fun _ _ _ _ => h.size_le hp.2
  | @guarded objection body ih =>
    rw [step_guarded, Step.guarded]
    cases objection t with
    | some e => rfl
    | none => exact ih hp.2 ht hcalls

/-- A call ends at a depth of as many calls of every layer as there are bytes, and of the layers
below its own. -/
theorem calls_isSome (h : s.Layered table rules rank layers) (hid : id.table = table)
    (hdepth : t.size * layers + rank id.slot + 2 ≤ depth) : (s.calls depth id t).isSome := by
  induction depth generalizing id t with
  | zero => omega
  | succ depth ih =>
    cases hrule : s.rule? id with
    | none =>
      have hready : s.table id.table ≠ .dropped := by simp [hid, h.ready]
      simp [calls, call_of_missing hready hrule]
    | some rule =>
      have hslot : rules[id.slot]? = some rule := by simpa only [rule?, hid, h.ready] using hrule
      have hbody : rule.body.All (Inside table) :=
        h.inside rule (Array.mem_toList_iff.2 (Array.mem_of_getElem? hslot))
      have hlayers : t.size ≤ t.size * layers :=
        Nat.le_mul_of_pos_right _ (Nat.zero_lt_of_lt (h.bounded 0))
      have hcalls : s.CallsEnd depth table t.size (s.Heads rule.body) := by
        rintro head x hhead (hx | ⟨hx, hheads⟩)
        · have hrank := h.bounded head.slot
          have hshorter : (x.size + 1) * layers ≤ t.size * layers := Nat.mul_le_mul_right _ hx
          rw [Nat.succ_mul] at hshorter
          exact ih hhead (by omega)
        · have hrank := h.descends id.slot rule hslot head hheads
          rw [← hx] at hdepth
          exact ih hhead (by omega)
      obtain ⟨r, hr⟩ :=
        Option.isSome_iff_exists.1 (h.step_isSome hbody (by omega) hcalls)
      simp [calls, call_of_rule hrule, Step.rule, hr]

/-- A parser that stays inside a layered table has a result on every text, at the depth that is
granted to it. -/
theorem run_isSome (h : s.Layered table rules rank layers) (hp : p.All (Inside table))
    (hlayers : layers ≤ s.ruleCount + 0x100000000) (t : Text) : (s.run p t).isSome := by
  have hdepth : t.size * layers + layers + 1 ≤ s.depthFor t := by
    have hmul := Nat.mul_le_mul hlayers (Nat.le_refl (t.size + 1))
    have hsplit : s.depthFor t =
        (s.ruleCount + 0x100000000) * (t.size + 1) + (s.ruleCount + 0x100000000) := rfl
    have hcomm : layers * (t.size + 1) = t.size * layers + layers := by
      rw [Nat.mul_comm, Nat.succ_mul]
    omega
  have hsize : t.size ≤ t.size * layers :=
    Nat.le_mul_of_pos_right _ (Nat.zero_lt_of_lt (h.bounded 0))
  refine h.step_isSome hp (by omega) fun id x hid hx => ?_
  have hrank := h.bounded id.slot
  have hshorter : x.size * layers ≤ t.size * layers := Nat.mul_le_mul_right _ (by omega)
  exact h.calls_isSome hid (by omega)

end Layered

end Store

end Descent
