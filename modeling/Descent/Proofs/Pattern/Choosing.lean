import Descent.Proofs.Pattern.Machine
import Descent.Proofs.Pattern.Preference
import Mathlib.Logic.Relation

/-!
# The machine prefers what the pattern prefers

Where nothing that is repeated without limit can match the empty text, the ways through a program form
a finite tree, and what comes first in it is the end that the pattern prefers (`Node.chooses`). The
marks of the machine change nothing of this: what has been tried is dead, or is on the way to where the
machine stands, and a finite tree does not come back to it. So the machine reports the preferred match
(`Engine.machine_prefersFirst`).
-/

namespace Descent.Pattern

/-- The tree of the ways on from here is finite, and this comes first of the ends it leads to. -/
inductive First (program : Array Inst) : List (ℕ × Cursor) → Option Cursor → Prop
  | nil : First program [] none
  | done {address : ℕ} {c : Cursor} {ways : List (ℕ × Cursor)} {result : Option Cursor}
    (hend : program[address]? = none) (hrest : First program ways result) :
    First program ((address, c) :: ways) (some c)
  | step {address : ℕ} {c : Cursor} {inst : Inst} {ways : List (ℕ × Cursor)}
    {result result' : Option Cursor} (hinst : program[address]? = some inst)
    (hnext : First program (inst.next address c) result) (hrest : First program ways result') :
    First program ((address, c) :: ways) (result.or result')

variable {program : Array Inst} {start middle stop address n count : ℕ} {inst : Inst} {c d e : Cursor}
  {way : ℕ × Cursor} {ways : List (ℕ × Cursor)} {result result' : Option Cursor} {greedy : Bool}
  {step step' : Cursor → List Cursor}

/-- What comes first from one way, or else from the others. -/
theorem First.cons (h : First program [way] result) (hrest : First program ways result') :
    First program (way :: ways) (result.or result') := by
  cases h with
  | done hend => exact .done hend hrest
  | step hinst hnext hnil =>
    cases hnil
    rw [Option.or_none]
    exact .step hinst hnext hrest

/-- An instruction leads to what comes first from where it leads on. -/
theorem First.single (hinst : program[address]? = some inst)
    (hnext : First program (inst.next address c) result) : First program [(address, c)] result := by
  simpa using First.step hinst hnext .nil

/-! ## Patterns -/

theorem findSome?_single {α β : Type} (k : α → Option β) (x : α) : [x].findSome? k = k x := by
  rw [List.findSome?_cons]
  cases k x <;> rfl

theorem findSome?_flatMap {α β γ : Type} (k : β → Option γ) (f : α → List β) (l : List α) :
    (l.flatMap f).findSome? k = l.findSome? fun x => (f x).findSome? k := by
  induction l with
  | nil => rfl
  | cons x l ih =>
    rw [List.flatMap_cons, List.findSome?_append, List.findSome?_cons, ih]
    cases (f x).findSome? k <;> rfl

/-- What comes first from `start` is what comes first from `stop`, at the places in their order. -/
structure Chooses (program : Array Inst) (start stop : ℕ) (step : Cursor → List Cursor) : Prop where
  first : ∀ {c : Cursor} {k : Cursor → Option Cursor},
    (∀ d ∈ step c, First program [(stop, d)] (k d)) → First program [(start, c)] ((step c).findSome? k)

namespace Chooses

theorem nil : Chooses program start start fun c => [c] where
  first {c k} hk := by
    rw [findSome?_single]
    exact hk c List.mem_cons_self

theorem append (h : Chooses program start middle step) (h' : Chooses program middle stop step') :
    Chooses program start stop fun c => (step c).flatMap step' where
  first {c k} hk := by
    rw [findSome?_flatMap]
    exact h.first fun d hd => h'.first fun e he => hk e (List.mem_flatMap.2 ⟨d, hd, he⟩)

/-- Leaving out repetitions changes nothing of what comes first. -/
theorem distinct (h : Chooses program start stop step) (hahead : ∀ c, ∀ e ∈ step c, c.Ahead e) :
    Chooses program start stop fun c => Cursor.distinct (step c) where
  first {c k} hk := by
    rw [Cursor.findSome?_distinct k (hahead c)]
    exact h.first fun d hd => hk d ((Cursor.mem_distinct (hahead c)).2 hd)

theorem take {s : CharSet} (hinst : program[start]? = some (.take s)) :
    Chooses program start (start + 1) fun c => (c.takeIn s).toList where
  first {c k} hk := by
    refine .single hinst ?_
    rw [Inst.next]
    cases htake : c.takeIn s with
    | none => exact .nil
    | some d => exact nil.first (c := d) fun d' hd' => hk d' (by simpa [htake] using hd')

theorem check {l : Look} (hinst : program[start]? = some (.check l)) :
    Chooses program start (start + 1) fun c => if l.holds c then [c] else [] where
  first {c k} hk := by
    refine .single hinst ?_
    rw [Inst.next]
    by_cases hholds : l.holds c = true
    · rw [if_pos hholds, if_pos hholds]
      exact nil.first (c := c) fun d hd => hk d (by simpa [hholds] using hd)
    · rw [if_neg hholds, if_neg hholds]
      exact .nil

theorem jump {target : ℕ} (hinst : program[start]? = some (.jump target)) :
    Chooses program start target fun c => [c] where
  first hk := .single hinst (nil.first hk)

/-- Two ways of which the first comes first. -/
theorem fork {first second : ℕ} (hinst : program[start]? = some (.fork first second))
    (h : Chooses program first stop step) (h' : Chooses program second stop step') :
    Chooses program start stop fun c => step c ++ step' c where
  first {c k} hk := by
    obtain ⟨hfirst, hsecond⟩ := List.forall_mem_append.1 hk
    rw [List.findSome?_append]
    exact .single hinst ((h.first hfirst).cons (h'.first hsecond))

theorem findSome?_arrange (k : Cursor → Option Cursor) (c : Cursor) (more : List Cursor) :
    (Node.arrange greedy c more).findSome? k =
      if greedy then (more.findSome? k).or (k c) else (k c).or (more.findSome? k) := by
  cases greedy with
  | true => simp [Node.arrange, List.findSome?_append]
  | false =>
    rw [Node.arrange, if_neg Bool.false_ne_true, if_neg Bool.false_ne_true, ← findSome?_single k,
      ← List.findSome?_append, List.singleton_append]

/-- At a split the way comes first that greed prefers. -/
theorem first_of_split {into : ℕ} (hinst : program[start]? = some (.split greedy into stop))
    (hinto : First program [(into, c)] result) (hpast : First program [(stop, c)] result') :
    First program [(start, c)] (if greedy then result.or result' else result'.or result) := by
  cases greedy with
  | true => exact .single hinst (hinto.cons hpast)
  | false => exact .single hinst (hpast.cons hinto)

/-- A way that may be left out. -/
theorem split {into : ℕ} (hinst : program[start]? = some (.split greedy into stop))
    (h : Chooses program into stop step) :
    Chooses program start stop fun c => Node.arrange greedy c (step c) where
  first {c k} hk := by
    rw [findSome?_arrange]
    exact first_of_split hinst (h.first fun d hd => hk d (Node.mem_arrange.2 (.inr hd)))
      (hk c (Node.mem_arrange.2 (.inl rfl)))

/-- A way that leads back to the fork before it, and takes something each time. -/
theorem loop {into : ℕ} (hinst : program[start]? = some (.split greedy into stop))
    (h : Chooses program into start step)
    (hstep : ∀ c, ∀ d ∈ step c, d.rest.length < c.rest.length) :
    Chooses program start stop (Node.anyTimes step greedy) where
  first {c k} hk := by
    -- Each way back leads to a place with fewer characters after it: the induction is on these.
    induction hlength : c.rest.length using Nat.strongRecOn generalizing c with
    | ind length ih =>
      subst hlength
      rw [Node.anyTimes_eq hstep] at hk ⊢
      rw [findSome?_arrange, findSome?_flatMap]
      refine first_of_split hinst (h.first fun d hd => ?_) (hk c (Node.mem_arrange.2 (.inl rfl)))
      refine ih d.rest.length (hstep c d hd) (fun e he => ?_) rfl
      exact hk e (Node.mem_arrange.2 (.inr (List.mem_flatMap.2 ⟨d, hd, he⟩)))

/-- Ways in a row. -/
theorem inRow {piece : ℕ → ℕ → Prop} (h : InRow piece count start stop)
    (hpiece : ∀ {start stop}, piece start stop → Chooses program start stop step) :
    Chooses program start stop (Node.times step count) := by
  induction h with
  | nil => exact nil
  | cons hfirst _ ih => exact (hpiece hfirst).append ih

/-- Ways in a row, before each of which the rest may be left out. -/
theorem leftOut {piece : ℕ → ℕ → Prop} (h : LeftOut program greedy piece stop count start)
    (hpiece : ∀ {start stop}, piece start stop → Chooses program start stop step) :
    Chooses program start stop (Node.upTo step greedy count) := by
  induction h with
  | nil => exact nil
  | cons hsplit hfirst _ ih => exact split hsplit ((hpiece hfirst).append ih)

/-- A way with a fork behind it that leads back. -/
theorem repeated {piece : ℕ → ℕ → Prop} (h : Repeated program greedy piece start stop)
    (hpiece : ∀ {start stop}, piece start stop → Chooses program start stop step)
    (hstep : ∀ c, ∀ d ∈ step c, d.rest.length < c.rest.length) :
    Chooses program start stop fun c => (step c).flatMap (Node.anyTimes step greedy) := by
  obtain ⟨fork, hfirst, hfork, -⟩ := h
  exact (hpiece hfirst).append (loop hfork (hpiece hfirst) hstep)

end Chooses

/-- The instructions of a pattern choose its ends in their order. -/
theorem Node.chooses {node : Node} (hsettled : node.settled = true)
    (h : node.LaidOut program start stop) : Chooses program start stop node.ends := by
  induction node generalizing start stop with
  | empty =>
    obtain rfl : stop = start := h
    exact .nil
  | set s =>
    obtain ⟨hinst, rfl⟩ := h
    exact .take hinst
  | look l =>
    obtain ⟨hinst, rfl⟩ := h
    exact .check hinst
  | seq a b iha ihb =>
    obtain ⟨hsa, hsb⟩ : a.settled = true ∧ b.settled = true := by simpa [settled] using hsettled
    obtain ⟨middle, ha, hb⟩ := h
    exact ((iha hsa ha).append (ihb hsb hb)).distinct
      (ahead_flatMap (fun _ _ => ahead_of_mem_ends) fun _ _ => ahead_of_mem_ends)
  | alt a b iha ihb =>
    obtain ⟨hsa, hsb⟩ : a.settled = true ∧ b.settled = true := by simpa [settled] using hsettled
    obtain ⟨second, hfork, ⟨back, ha, hjump⟩, hb⟩ := h
    have hfirst : Chooses program (start + 1) stop a.ends := by
      simpa using (iha hsa ha).append (.jump hjump)
    refine (Chooses.fork hfork hfirst (ihb hsb hb)).distinct fun c e he => ?_
    exact (List.mem_append.1 he).elim ahead_of_mem_ends ahead_of_mem_ends
  | loop least most greedy body ih =>
    have hforward : ∀ c, ∀ e ∈ body.ends c, c.Ahead e := fun _ _ => ahead_of_mem_ends
    have hany : ∀ c, ∀ e ∈ anyTimes body.ends greedy c, c.Ahead e := fun c => ahead_upTo hforward c
    match least, most with
    | least, some most =>
      have hbody : body.settled = true := by simpa [settled] using hsettled
      obtain ⟨middle, hleast, hmore⟩ := h
      exact ((Chooses.inRow hleast (ih hbody)).append (.leftOut hmore (ih hbody))).distinct
        (ahead_flatMap (ahead_times hforward) (ahead_upTo hforward))
    | 0, none =>
      obtain ⟨hbody, hwidth⟩ : body.settled = true ∧ 0 < body.minWidth := by
        simpa [settled] using hsettled
      obtain ⟨hsplit, hback⟩ := h
      rw [if_pos hwidth] at hback
      obtain ⟨back, hback, hjump⟩ := hback
      have hround : Chooses program (start + 1) start body.ends := by
        simpa using (ih hbody hback).append (.jump hjump)
      have hloop := Chooses.loop hsplit hround fun c d => length_lt_of_mem_ends hwidth
      exact (Chooses.nil.append hloop).distinct (ahead_flatMap (ahead_times (n := 0) hforward) hany)
    | least + 1, none =>
      obtain ⟨hbody, hwidth⟩ : body.settled = true ∧ 0 < body.minWidth := by
        simpa [settled] using hsettled
      obtain ⟨middle, hleast, hmore⟩ := h
      have hrepeated := (Chooses.inRow hleast (ih hbody)).append
        (.repeated hmore (ih hbody) fun c d => length_lt_of_mem_ends hwidth)
      have hrounds (c : Cursor) : ((times body.ends least c).flatMap fun d =>
          (body.ends d).flatMap (anyTimes body.ends greedy)) =
            (times body.ends (least + 1) c).flatMap (anyTimes body.ends greedy) := by
        rw [times_succ, List.flatMap_assoc]
      simp only [hrounds] at hrepeated
      exact hrepeated.distinct (ahead_flatMap (ahead_times hforward) hany)

/-! ## The machine -/

/-- From one way another is the next. -/
def Follows (program : Array Inst) (way way' : ℕ × Cursor) : Prop :=
  ∃ inst, program[way.1]? = some inst ∧ way' ∈ inst.next way.1 way.2

/-- From one way a run can come to another. -/
abbrev ComesTo (program : Array Inst) : ℕ × Cursor → ℕ × Cursor → Prop :=
  Relation.ReflTransGen (Follows program)

/-- What comes first is an end that one of the ways leads to. -/
theorem First.leads (h : First program ways (some e)) : ∃ way ∈ ways, Leads program way.1 way.2 e := by
  generalize hresult : some e = result at h
  induction h with
  | nil => cases hresult
  | done hend =>
    cases hresult
    exact ⟨_, List.mem_cons_self, 0, .done hend⟩
  | @step address c inst ways result result' hinst _ _ ihNext ihRest =>
    rcases Option.or_eq_some_iff.1 hresult.symm with hfirst | ⟨-, hrest⟩
    · obtain ⟨way, hway, hleads⟩ := ihNext hfirst.symm
      exact ⟨_, List.mem_cons_self, hleads.of_next hinst hway⟩
    · obtain ⟨way, hway, hleads⟩ := ihRest hrest.symm
      exact ⟨way, List.mem_cons_of_mem _ hway, hleads⟩

/-- An instruction is dead if all that it leads to is. -/
theorem dead_of_next (hinst : program[address]? = some inst)
    (h : ∀ way ∈ inst.next address c, Dead program way.1 way.2) : Dead program address c := by
  rintro e ⟨n, hrun⟩
  obtain ⟨m, -, address', c', hmem, hrun⟩ := hrun.exists_next hinst
  exact h _ hmem e ⟨m, hrun⟩

/-- Where nothing comes first, all ways are dead. -/
theorem First.dead (h : First program ways none) : ∀ way ∈ ways, Dead program way.1 way.2 := by
  generalize hresult : none = result at h
  induction h with
  | nil => nofun
  | done hend => cases hresult
  | @step address c inst ways result result' hinst _ _ ihNext ihRest =>
    obtain ⟨hfirst, hrest⟩ := Option.or_eq_none_iff.1 hresult.symm
    exact List.forall_mem_cons.2 ⟨dead_of_next hinst (ihNext hfirst.symm), ihRest hrest.symm⟩

/-- A finite tree is well-founded. -/
theorem First.acc (h : First program ways result) :
    ∀ way ∈ ways, Acc (fun way' way => Follows program way way') way := by
  induction h with
  | nil => nofun
  | done hend _ ih =>
    refine List.forall_mem_cons.2 ⟨.intro _ fun way' hfollows => ?_, ih⟩
    obtain ⟨inst, hinst, -⟩ := hfollows
    cases hend.symm.trans hinst
  | step hinst _ _ ihNext ihRest =>
    refine List.forall_mem_cons.2 ⟨.intro _ fun way' hfollows => ?_, ihRest⟩
    obtain ⟨inst', hinst', hmem⟩ := hfollows
    cases hinst.symm.trans hinst'
    exact ihNext way' hmem

/-- No way in a finite tree comes back to itself. -/
theorem not_comesTo_of_acc {way way' : ℕ × Cursor}
    (h : Acc (fun way' way => Follows program way way') way) (hfollows : Follows program way way') :
    ¬ComesTo program way' way := by
  induction h generalizing way' with
  | intro way _ ih =>
    intro hcomes
    rcases hcomes.cases_head with rfl | ⟨way'', hnext, hcomes⟩
    · exact ih way' hfollows hfollows .refl
    · exact ih way' hfollows hnext (hcomes.tail hfollows)

variable {chars : List Char} {fuel : ℕ} {marks marks' : Marks} {rest : List (ℕ × Cursor)}

/-- What has been tried is dead, or lies behind: none of the ways comes to it. -/
def Behind (program : Array Inst) (chars : List Char) (marks : Marks) (ways : List (ℕ × Cursor)) :
    Prop :=
  ∀ address c, (Cursor.start chars).Ahead c → marks.has address c.offset = true →
    Dead program address c ∨ ∀ way ∈ ways, ¬ComesTo program way (address, c)

namespace Behind

theorem drop (h : Behind program chars marks (way :: ways)) : Behind program chars marks ways :=
  fun address c hc htried => (h address c hc htried).imp_right fun hcomes way hway =>
    hcomes way (List.mem_cons_of_mem _ hway)

/-- What has been tried and is still ahead is dead. -/
theorem dead_head (h : Behind program chars marks ((address, c) :: ways))
    (hc : (Cursor.start chars).Ahead c) (htried : marks.has address c.offset = true) :
    Dead program address c :=
  (h address c hc htried).resolve_right fun hcomes => hcomes _ List.mem_cons_self .refl

/-- A way that is tried lies behind what it leads to, if the tree is finite. -/
theorem expand (h : Behind program chars marks ((address, c) :: ways))
    (hc : (Cursor.start chars).Ahead c) (hroom : marks.bits.size = chars.length + 1)
    (hinst : program[address]? = some inst)
    (hacc : Acc (fun way' way => Follows program way way') (address, c)) :
    Behind program chars (marks.add address c.offset) (inst.next address c) := by
  have hplace : c.offset < marks.bits.size := hroom ▸ offset_lt hc
  intro address' c' hc' htried
  rcases (Marks.has_add hplace).1 htried with htried | ⟨rfl, hoffset⟩
  · refine (h address' c' hc' htried).imp_right fun hcomes way hway hcomes' => ?_
    exact hcomes _ List.mem_cons_self (hcomes'.head ⟨inst, hinst, hway⟩)
  · obtain rfl := hc'.eq_of_offset hc hoffset
    exact .inr fun way hway => not_comesTo_of_acc hacc ⟨inst, hinst, hway⟩

end Behind

/-- Nothing but what is dead has been tried in addition. -/
def AddsDead (program : Array Inst) (chars : List Char) (marks marks' : Marks) : Prop :=
  ∀ address c, (Cursor.start chars).Ahead c → marks'.has address c.offset = true →
    marks.has address c.offset = true ∨ Dead program address c

theorem AddsDead.trans {marks'' : Marks} (h : AddsDead program chars marks marks')
    (h' : AddsDead program chars marks' marks'') : AddsDead program chars marks marks'' :=
  fun address c hc htried => (h' address c hc htried).elim (h address c hc) .inr

/-- With what is dead besides, what lies behind lies behind. -/
theorem AddsDead.behind (h : AddsDead program chars marks marks')
    (hbehind : Behind program chars marks ways) : Behind program chars marks' ways :=
  fun address c hc htried => (h address c hc htried).elim (hbehind address c hc) .inl

/-- A dead way may be tried. -/
theorem addsDead_add (hc : (Cursor.start chars).Ahead c) (hroom : marks.bits.size = chars.length + 1)
    (hdead : Dead program address c) :
    AddsDead program chars marks (marks.add address c.offset) := by
  have hplace : c.offset < marks.bits.size := hroom ▸ offset_lt hc
  intro address' c' hc' htried
  refine ((Marks.has_add hplace).1 htried).imp_right ?_
  rintro ⟨rfl, hoffset⟩
  rwa [hc'.eq_of_offset hc hoffset]

/-- The work ends with the end that comes first, or, if there is none, goes on with the rest. -/
def GoesOn (program : Array Inst) (chars : List Char) (marks : Marks) (rest : List (ℕ × Cursor))
    (work : Marks × Option Cursor) : Option Cursor → Prop
  | some e => work.2 = some e
  | none => ∃ fuel' marks', work = Machine.work program fuel' marks' rest ∧
      Machine.Searching program chars fuel' marks' rest ∧ AddsDead program chars marks marks'

/-- The machine goes through the ways up to the end that comes first, and past them if there is none. -/
theorem work_of_first (hfirst : First program ways result)
    (hsearching : Machine.Searching program chars fuel marks (ways ++ rest))
    (hbehind : Behind program chars marks ways) :
    GoesOn program chars marks rest (Machine.work program fuel marks (ways ++ rest)) result := by
  induction hfirst generalizing fuel marks rest with
  | nil => exact ⟨fuel, marks, rfl, hsearching, fun _ _ _ htried => .inl htried⟩
  | done hend =>
    cases fuel with
    | zero => cases hsearching.enough
    | succ fuel => simp [GoesOn, Machine.work, hend]
  | @step address c inst ways result result' hinst hnext hrest ihNext ihRest =>
    have hc : (Cursor.start chars).Ahead c := hsearching.inText _ List.mem_cons_self
    cases fuel with
    | zero => cases hsearching.enough
    | succ fuel =>
      by_cases hseen : marks.has address c.offset = true
      · have hdead := hbehind.dead_head hc hseen
        have hnone : result = none := by
          cases result with
          | none => rfl
          | some e =>
            obtain ⟨way, hway, hleads⟩ := hnext.leads
            exact absurd (hleads.of_next hinst hway) (hdead e)
        subst hnone
        simp only [List.cons_append, Machine.work, hinst, if_pos hseen, Option.none_or]
        exact ihRest hsearching.drop hbehind.drop
      · have hacc := (First.step hinst hnext hrest).acc _ List.mem_cons_self
        have hinner : Machine.Searching program chars fuel (marks.add address c.offset)
            (inst.next address c ++ (ways ++ rest)) :=
          hsearching.expand hinst (Bool.eq_false_iff.2 hseen)
        have hfound := ihNext hinner (hbehind.expand hc hsearching.room hinst hacc)
        simp only [List.cons_append, Machine.work, hinst, if_neg hseen]
        cases result with
        | some e => exact hfound
        | none =>
          obtain ⟨fuel', marks', hsame, hsearching', hadds⟩ := hfound
          have hdead := addsDead_add hc hsearching.room (dead_of_next hinst hnext.dead)
          have hadds := hdead.trans hadds
          have hlast := ihRest hsearching' (hadds.behind hbehind.drop)
          rw [hsame, Option.none_or]
          cases result' with
          | some e => exact hlast
          | none =>
            obtain ⟨fuel'', marks'', hsame', hsearching'', hadds'⟩ := hlast
            exact ⟨fuel'', marks'', hsame', hsearching'', hadds.trans hadds'⟩

/-- Of a pattern that is settled, the machine reports the match that it prefers. -/
theorem Engine.machine_prefersFirst {node : Node} (hsettled : node.settled = true)
    (source : List Char) : Engine.machine.PrefersFirst source node := by
  intro find chars c last hfind hc hresult
  obtain rfl := compile?_machine hfind
  have hends := Machine.ends_search node.program chars
  rw [hresult] at hends
  generalize hfirst : c.offset = first at hends
  cases hends with
  | @found d e marks hd hroom hmarks hwork _ =>
    obtain rfl := hc.eq_of_offset hd hfirst
    have hchosen := (Node.chooses hsettled node.laidOut_program).first (c := c) (k := some)
      fun d _ => .done node.getElem?_program_size .nil
    have hbehind : Behind node.program chars marks [(0, c)] :=
      fun address d hd htried => .inl (hmarks address d hd htried)
    have hstart : Machine.Searching node.program chars _ marks ([(0, c)] ++ []) :=
      Machine.searching_start hc hroom
    have hsearch := work_of_first hchosen hstart hbehind
    rw [← List.head?_filterMap, List.filterMap_some] at hsearch
    cases hhead : (node.ends c).head? with
    | none =>
      rw [hhead] at hsearch
      obtain ⟨fuel', marks', hsame, -, -⟩ := hsearch
      rw [List.append_nil] at hsame
      rw [hsame] at hwork
      cases fuel' <;> cases hwork
    | some e' =>
      rw [hhead] at hsearch
      have hsame : some e' = some e := hsearch.symm.trans hwork
      cases hsame
      rfl

end Descent.Pattern
