import Descent.Proofs.Pattern.Layout
import Descent.Proofs.Pattern.Matching

/-!
# Where programs lead

A run of a program through the instructions of a pattern comes out behind them, at a place up to which
the pattern matches, and it can come out at every such place (`Node.segment`). The instructions of a
pattern are put together from those of its parts, and so is this property of them (`Segment`). A run
through a loop is cut where it comes back to the fork; what is left is shorter.
-/

namespace Descent.Pattern

/-! ## Runs -/

/-- In so many steps a run from an instruction and a place leads past the end of the program. -/
inductive RunsTo (program : Array Inst) : ℕ → ℕ → Cursor → Cursor → Prop
  | done {address : ℕ} {c : Cursor} (hend : program[address]? = none) :
    RunsTo program 0 address c c
  | step {n address address' : ℕ} {inst : Inst} {c c' e : Cursor}
    (hinst : program[address]? = some inst) (hnext : (address', c') ∈ inst.next address c)
    (hrest : RunsTo program n address' c' e) : RunsTo program (n + 1) address c e

/-- Some run from an instruction and a place leads past the end of the program. -/
def Leads (program : Array Inst) (address : ℕ) (c e : Cursor) : Prop :=
  ∃ n, RunsTo program n address c e

variable {program : Array Inst} {start middle stop address n count size : ℕ} {inst : Inst}
  {c d e : Cursor} {related related' : Cursor → Cursor → Prop} {greedy : Bool}

/-- A split leads into what may be left out, and past it. -/
theorem Inst.mem_next_split {into past : ℕ} {way : ℕ × Cursor} :
    way ∈ (Inst.split greedy into past).next address c ↔ way = (into, c) ∨ way = (past, c) := by
  cases greedy with
  | true => simp [Inst.split, Inst.next]
  | false => simp [Inst.split, Inst.next, or_comm]

/-- A run from an instruction of the program goes on at one of those that come next. -/
theorem RunsTo.exists_next (h : RunsTo program n address c e) (hinst : program[address]? = some inst) :
    ∃ m < n, ∃ address' c', (address', c') ∈ inst.next address c ∧ RunsTo program m address' c' e := by
  cases h with
  | done hend => cases hinst.symm.trans hend
  | @step n _ address' _ _ c' _ hinst' hnext hrest =>
    cases hinst.symm.trans hinst'
    exact ⟨n, Nat.lt_succ_self n, address', c', hnext, hrest⟩

theorem Leads.of_next {address' : ℕ} {c' : Cursor} (hinst : program[address]? = some inst)
    (hnext : (address', c') ∈ inst.next address c) (h : Leads program address' c' e) :
    Leads program address c e := by
  obtain ⟨n, hrest⟩ := h
  exact ⟨n + 1, .step hinst hnext hrest⟩

/-! ## Segments -/

/-- Runs that go in at `start` come out at `stop`, at a related place, and can do so at each. -/
structure Segment (program : Array Inst) (start stop : ℕ) (related : Cursor → Cursor → Prop) :
    Prop where
  sound : ∀ {n c e}, RunsTo program n start c e →
    ∃ d, related c d ∧ ∃ m ≤ n, RunsTo program m stop d e
  complete : ∀ {c d e}, related c d → Leads program stop d e → Leads program start c e

namespace Segment

theorem congr (h : Segment program start stop related) (hsame : ∀ c e, related c e ↔ related' c e) :
    Segment program start stop related' where
  sound hrun := by
    obtain ⟨d, hd, hrest⟩ := h.sound hrun
    exact ⟨d, (hsame _ _).1 hd, hrest⟩
  complete hd hrest := h.complete ((hsame _ _).2 hd) hrest

/-- Nothing to go through. -/
theorem nil : Segment program start start fun c e => e = c where
  sound hrun := ⟨_, rfl, _, Nat.le_refl _, hrun⟩
  complete hd hrest := by
    subst hd
    exact hrest

/-- One segment after another. -/
theorem append (h : Segment program start middle related) (h' : Segment program middle stop related') :
    Segment program start stop fun c e => ∃ d, related c d ∧ related' d e where
  sound hrun := by
    obtain ⟨d, hd, m, hm, hrest⟩ := h.sound hrun
    obtain ⟨e, he, k, hk, hrest⟩ := h'.sound hrest
    exact ⟨e, ⟨d, hd, he⟩, k, Nat.le_trans hk hm, hrest⟩
  complete hd hrest := by
    obtain ⟨d, hd, he⟩ := hd
    exact h.complete hd (h'.complete he hrest)

/-- An instruction that only ever leads to one other. -/
theorem single (hinst : program[start]? = some inst)
    (hnext : ∀ way c, way ∈ inst.next start c ↔ way.1 = stop ∧ related c way.2) :
    Segment program start stop related where
  sound hrun := by
    obtain ⟨m, hm, address, d, hmem, hrest⟩ := hrun.exists_next hinst
    obtain ⟨rfl, hd⟩ := (hnext _ _).1 hmem
    exact ⟨d, hd, m, Nat.le_of_lt hm, hrest⟩
  complete hd hrest := hrest.of_next hinst ((hnext (stop, _) _).2 ⟨rfl, hd⟩)

theorem take {s : CharSet} (hinst : program[start]? = some (.take s)) :
    Segment program start (start + 1) fun c e => c.takeIn s = some e :=
  single hinst fun ⟨address, e⟩ c => by
    simp only [Inst.next, Option.mem_toList, Option.map_eq_some_iff, Prod.mk.injEq]
    constructor
    · rintro ⟨d, hd, rfl, rfl⟩
      exact ⟨rfl, hd⟩
    · rintro ⟨rfl, hd⟩
      exact ⟨e, hd, rfl, rfl⟩

theorem check {l : Look} (hinst : program[start]? = some (.check l)) :
    Segment program start (start + 1) fun c e => l.holds c = true ∧ e = c :=
  single hinst fun ⟨address, e⟩ c => by
    by_cases hholds : l.holds c = true
    · simp [Inst.next, hholds]
    · simp [Inst.next, hholds]

theorem jump {target : ℕ} (hinst : program[start]? = some (.jump target)) :
    Segment program start target fun c e => e = c :=
  single hinst fun ⟨address, e⟩ c => by simp [Inst.next]

/-- Two segments of which one or the other is gone through. -/
theorem fork {first second : ℕ} (hinst : program[start]? = some (.fork first second))
    (h : Segment program first stop related) (h' : Segment program second stop related') :
    Segment program start stop fun c e => related c e ∨ related' c e where
  sound hrun := by
    obtain ⟨m, hm, address, d, hmem, hrest⟩ := hrun.exists_next hinst
    simp only [Inst.next, List.mem_cons, Prod.mk.injEq, List.not_mem_nil, or_false] at hmem
    rcases hmem with ⟨rfl, rfl⟩ | ⟨rfl, rfl⟩
    · obtain ⟨d, hd, k, hk, hrest⟩ := h.sound hrest
      exact ⟨d, .inl hd, k, Nat.le_trans hk (Nat.le_of_lt hm), hrest⟩
    · obtain ⟨d, hd, k, hk, hrest⟩ := h'.sound hrest
      exact ⟨d, .inr hd, k, Nat.le_trans hk (Nat.le_of_lt hm), hrest⟩
  complete hd hrest := by
    rcases hd with hd | hd
    · exact (h.complete hd hrest).of_next hinst (by simp [Inst.next])
    · exact (h'.complete hd hrest).of_next hinst (by simp [Inst.next])

/-- A segment that may be left out. -/
theorem split {into : ℕ} (hinst : program[start]? = some (.split greedy into stop))
    (h : Segment program into stop related) :
    Segment program start stop fun c e => e = c ∨ related c e := by
  cases greedy with
  | true => exact (fork hinst h nil).congr fun c e => or_comm
  | false => exact fork hinst nil h

/-- A segment that leads back to the fork before it. -/
theorem loop {into : ℕ} (hinst : program[start]? = some (.split greedy into stop))
    (h : Segment program into start related) :
    Segment program start stop fun c e => ∃ n, Rounds related n c e where
  sound {n c e} hrun := by
    -- A run that has come back to the fork is shorter, so the induction is on the length of the run.
    induction n using Nat.strongRecOn generalizing c with
    | ind n ih =>
      obtain ⟨m, hm, address, d, hmem, hrest⟩ := hrun.exists_next hinst
      rcases Inst.mem_next_split.1 hmem with hway | hway
      · cases hway
        obtain ⟨d, hd, k, hk, hrest⟩ := h.sound hrest
        obtain ⟨d', ⟨rounds, hrounds⟩, j, hj, hrest⟩ := ih k (Nat.lt_of_le_of_lt hk hm) hrest
        exact ⟨d', ⟨rounds + 1, d, hd, hrounds⟩, j, by omega, hrest⟩
      · cases hway
        exact ⟨c, ⟨0, rfl⟩, m, Nat.le_of_lt hm, hrest⟩
  complete {c d e} hd hrest := by
    obtain ⟨n, hrounds⟩ := hd
    induction n generalizing c with
    | zero =>
      obtain rfl : d = c := hrounds
      exact hrest.of_next hinst (Inst.mem_next_split.2 (.inr rfl))
    | succ n ih =>
      obtain ⟨d', hd', hrounds⟩ := hrounds
      exact (h.complete hd' (ih hrounds)).of_next hinst (Inst.mem_next_split.2 (.inl rfl))

/-- Segments in a row. -/
theorem inRow {piece : ℕ → ℕ → Prop} (h : InRow piece count start stop)
    (hpiece : ∀ {start stop}, piece start stop → Segment program start stop related) :
    Segment program start stop (Rounds related count) := by
  induction h with
  | nil => exact nil
  | cons hfirst _ ih => exact (hpiece hfirst).append ih

/-- Segments in a row, before each of which the rest may be left out. -/
theorem leftOut {piece : ℕ → ℕ → Prop} (h : LeftOut program greedy piece stop count start)
    (hpiece : ∀ {start stop}, piece start stop → Segment program start stop related) :
    Segment program start stop fun c e => ∃ n ≤ count, Rounds related n c e := by
  induction h with
  | nil => exact nil.congr fun c e => by simp [Rounds]
  | cons hsplit hfirst _ ih =>
    refine (split hsplit ((hpiece hfirst).append ih)).congr fun c e => ?_
    constructor
    · rintro (rfl | ⟨d, hd, n, hn, hrounds⟩)
      · exact ⟨0, Nat.zero_le _, rfl⟩
      · exact ⟨n + 1, Nat.succ_le_succ hn, d, hd, hrounds⟩
    · rintro ⟨_ | n, hn, hrounds⟩
      · exact .inl hrounds
      · obtain ⟨d, hd, hrounds⟩ := hrounds
        exact .inr ⟨d, hd, n, Nat.le_of_succ_le_succ hn, hrounds⟩

/-- A segment with a fork behind it that leads back. -/
theorem repeated {piece : ℕ → ℕ → Prop} (h : Repeated program greedy piece start stop)
    (hpiece : ∀ {start stop}, piece start stop → Segment program start stop related) :
    Segment program start stop fun c e => ∃ d, related c d ∧ ∃ n, Rounds related n d e := by
  obtain ⟨fork, hfirst, hfork, -⟩ := h
  exact (hpiece hfirst).append (loop hfork (hpiece hfirst))

end Segment

/-- The instructions of a pattern lead where it matches, and nowhere else. -/
theorem Node.segment {node : Node} (h : node.LaidOut program start stop) :
    Segment program start stop node.Matches := by
  induction node generalizing start stop with
  | empty =>
    obtain rfl : stop = start := h
    exact .nil
  | set s =>
    obtain ⟨hinst, rfl⟩ := h
    exact .take hinst
  | look l =>
    obtain ⟨hinst, rfl⟩ := h
    exact .check hinst
  | seq a b iha ihb =>
    obtain ⟨middle, ha, hb⟩ := h
    exact (iha ha).append (ihb hb)
  | alt a b iha ihb =>
    obtain ⟨second, hfork, ⟨back, ha, hjump⟩, hb⟩ := h
    have hfirst := (iha ha).append (.jump hjump)
    exact (Segment.fork hfork hfirst (ihb hb)).congr fun c e => by simp [Matches]
  | loop least most greedy body ih =>
    match least, most with
    | least, some most =>
      obtain ⟨middle, hleast, hmore⟩ := h
      exact ((Segment.inRow hleast ih).append (.leftOut hmore ih)).congr fun c e => allowed_iff.symm
    | 0, none =>
      obtain ⟨hsplit, hbody⟩ := h
      have hsegment : Segment program start stop fun c e => ∃ n, Rounds body.Matches n c e := by
        split at hbody
        · obtain ⟨back, hbody, hjump⟩ := hbody
          have hround := (ih hbody).append (.jump hjump)
          exact .loop hsplit (hround.congr fun c e => by simp)
        · exact (Segment.split hsplit (.repeated hbody ih)).congr fun c e => exists_rounds_iff.symm
      exact hsegment.congr fun c e => by simp [Matches, Allowed]
    | least + 1, none =>
      obtain ⟨middle, hleast, hmore⟩ := h
      have hsegment := (Segment.inRow hleast ih).append (.repeated hmore ih)
      refine hsegment.congr fun c e => (allowed_none_iff.trans ?_).symm
      simp only [rounds_succ]
      constructor
      · rintro ⟨d', ⟨d, hd, hbody⟩, hmore⟩
        exact ⟨d, hd, d', hbody, hmore⟩
      · rintro ⟨d, hd, d', hbody, hmore⟩
        exact ⟨d', ⟨d, hd, hbody⟩, hmore⟩

end Descent.Pattern
