import Descent.Pattern.Machine
import Descent.Proofs.Pattern.Segments
import Mathlib.Data.Finset.Prod
import Mathlib.Order.Interval.Finset.Nat

/-!
# The machine finds matches

What the machine finds, some run of the program leads to, and where it finds nothing no run leads to
the end of the program: each way that it has tried has been followed up, or is still to be followed, or
was in vain before (`Explored`). The fuel suffices, because each instruction is tried once at each place
and adds two ways at most. So the engine reports matches only, and none begins before the one that it
reports (`Engine.machine_findsMatches`).
-/

namespace Descent.Pattern

/-! ## Marks -/

namespace Marks

variable {marks : Marks} {address address' place place' : ℕ}

theorem size_add : (marks.add address place).bits.size = marks.bits.size := Array.size_modify ..

theorem has_none (places : ℕ) : (Marks.none places).has address place = false := by
  by_cases h : place < places <;> simp [has, none, h]

/-- What is marked is marked, and nothing else. -/
theorem has_add (h : place < marks.bits.size) : (marks.add address place).has address' place' = true ↔
    marks.has address' place' = true ∨ (address' = address ∧ place' = place) := by
  unfold has add
  simp only [Array.getD_eq_getD_getElem?, Array.getElem?_modify]
  by_cases hplace : place' = place
  · subst hplace
    simp [h, Nat.testBit_or, Nat.one_shiftLeft, Nat.testBit_two_pow, @eq_comm _ address']
  · simp [hplace, Ne.symm hplace]

end Marks

/-- No run leads from here to the end of the program. -/
def Dead (program : Array Inst) (address : ℕ) (c : Cursor) : Prop := ∀ e, ¬Leads program address c e

/-- What has not been tried at any of the places. -/
def untried (program : Array Inst) (places : ℕ) (marks : Marks) : Finset (ℕ × ℕ) :=
  (Finset.range program.size ×ˢ Finset.range places).filter fun p => marks.has p.1 p.2 = false

variable {program : Array Inst} {chars : List Char} {fuel address : ℕ} {marks marks' : Marks}
  {inst : Inst} {c d e : Cursor} {way : ℕ × Cursor} {ways ways' : List (ℕ × Cursor)}

theorem offset_lt (h : (Cursor.start chars).Ahead c) : c.offset < chars.length + 1 := by
  have hle := h.offset_le_end
  simp only [Cursor.start] at hle
  omega

theorem card_untried_le (places : ℕ) : (untried program places marks).card ≤ program.size * places := by
  refine (Finset.card_filter_le _ _).trans ?_
  rw [Finset.card_product, Finset.card_range, Finset.card_range]

/-- With one more mark there is less to try. -/
theorem card_untried_lt {places place : ℕ} (haddress : address < program.size) (hplace : place < places)
    (hsize : marks.bits.size = places) (hnew : marks.has address place = false) :
    (untried program places (marks.add address place)).card < (untried program places marks).card := by
  have hroom : place < marks.bits.size := hsize ▸ hplace
  have hadd {p : ℕ × ℕ} : (marks.add address place).has p.1 p.2 = true ↔
      marks.has p.1 p.2 = true ∨ p.1 = address ∧ p.2 = place := Marks.has_add hroom
  refine Finset.card_lt_card ((Finset.ssubset_iff_of_subset fun p hp => ?_).2 ⟨(address, place), ?_, ?_⟩)
  · simp only [untried, Finset.mem_filter, ← Bool.not_eq_true, hadd, not_or] at hp ⊢
    exact ⟨hp.1, hp.2.1⟩
  · simp [untried, haddress, hplace, hnew]
  · simp only [untried, Finset.mem_filter, ← Bool.not_eq_true, hadd]
    simp

namespace Machine

/-! ## Steps of the search -/

/-- An instruction leads on, to two places at most. -/
theorem length_next_le : (inst.next address c).length ≤ 2 := by
  cases inst with
  | take s =>
    simp only [Inst.next]
    cases c.takeIn s <;> simp
  | check l =>
    simp only [Inst.next]
    split <;> simp
  | fork | jump => simp [Inst.next]

theorem ahead_of_next (h : way ∈ inst.next address c) : c.Ahead way.2 := by
  cases inst with
  | take s =>
    simp only [Inst.next, Option.mem_toList, Option.map_eq_some_iff] at h
    obtain ⟨d, hd, rfl⟩ := h
    exact (Cursor.takeIn_eq_some hd).1
  | check l =>
    simp only [Inst.next] at h
    split at h
    · exact List.mem_singleton.1 h ▸ .here c
    · cases h
  | fork first second =>
    simp only [Inst.next, List.mem_cons, List.not_mem_nil, or_false] at h
    rcases h with rfl | rfl <;> exact .here c
  | jump target => exact List.mem_singleton.1 h ▸ .here c

/-- What holds at each step of a search: the ways go on in the text, there is room for a mark at each
place of it, and the fuel suffices for the ways and for those that can be added. -/
structure Searching (program : Array Inst) (chars : List Char) (fuel : ℕ) (marks : Marks)
    (ways : List (ℕ × Cursor)) : Prop where
  inText : ∀ way ∈ ways, (Cursor.start chars).Ahead way.2
  room : marks.bits.size = chars.length + 1
  enough : ways.length + 2 * (untried program (chars.length + 1) marks).card < fuel

namespace Searching

theorem drop (h : Searching program chars (fuel + 1) marks (way :: ways)) :
    Searching program chars fuel marks ways where
  inText := (List.forall_mem_cons.1 h.inText).2
  room := h.room
  enough := by
    have henough := h.enough
    rw [List.length_cons] at henough
    omega

theorem expand (h : Searching program chars (fuel + 1) marks ((address, c) :: ways))
    (hinst : program[address]? = some inst) (hnew : marks.has address c.offset = false) :
    Searching program chars fuel (marks.add address c.offset) (inst.next address c ++ ways) where
  inText way hway := by
    obtain ⟨hc, hways⟩ := List.forall_mem_cons.1 h.inText
    rcases List.mem_append.1 hway with hway | hway
    · exact hc.trans (ahead_of_next hway)
    · exact hways way hway
  room := Marks.size_add.trans h.room
  enough := by
    have haddress : address < program.size := (Array.getElem?_eq_some_iff.1 hinst).1
    have hc : (Cursor.start chars).Ahead c := (List.forall_mem_cons.1 h.inText).1
    have hplace := offset_lt hc
    have hless := card_untried_lt haddress hplace h.room hnew
    have hnext : (inst.next address c).length ≤ 2 := length_next_le
    have henough := h.enough
    rw [List.length_cons] at henough
    rw [List.length_append]
    omega

end Searching

/-- All that has been tried is dead. -/
def AllDead (program : Array Inst) (chars : List Char) (marks : Marks) : Prop :=
  ∀ address c, (Cursor.start chars).Ahead c → marks.has address c.offset = true → Dead program address c

/-- What has been tried is dead, or what comes next has been tried or is still to be tried. -/
def Explored (program : Array Inst) (chars : List Char) (marks : Marks) (ways : List (ℕ × Cursor)) :
    Prop :=
  ∀ address c, (Cursor.start chars).Ahead c → marks.has address c.offset = true →
    Dead program address c ∨ ∃ inst, program[address]? = some inst ∧
      ∀ way ∈ inst.next address c, way ∈ ways ∨ marks.has way.1 way.2.offset = true

namespace Explored

theorem of_allDead (h : AllDead program chars marks) : Explored program chars marks ways :=
  fun address c hc htried => .inl (h address c hc htried)

/-- A way that has been tried is not tried again. -/
theorem drop (h : Explored program chars marks ((address, c) :: ways))
    (hseen : marks.has address c.offset = true) : Explored program chars marks ways := by
  intro address' c' hahead htried
  refine (h address' c' hahead htried).imp_right fun ⟨inst, hinst, hnext⟩ => ⟨inst, hinst, ?_⟩
  intro way hway
  rcases hnext way hway with hmem | htried
  · rcases List.mem_cons.1 hmem with rfl | hmem
    · exact .inr hseen
    · exact .inl hmem
  · exact .inr htried

/-- A way that is tried is followed up. -/
theorem expand (h : Explored program chars marks ((address, c) :: ways))
    (hc : (Cursor.start chars).Ahead c) (hroom : marks.bits.size = chars.length + 1)
    (hinst : program[address]? = some inst) :
    Explored program chars (marks.add address c.offset) (inst.next address c ++ ways) := by
  have hplace : c.offset < marks.bits.size := hroom ▸ offset_lt hc
  intro address' c' hahead htried
  rcases (Marks.has_add hplace).1 htried with htried | ⟨rfl, hoffset⟩
  · refine (h address' c' hahead htried).imp_right fun ⟨inst', hinst', hnext⟩ => ⟨inst', hinst', ?_⟩
    intro way hway
    rcases hnext way hway with hmem | htried
    · rcases List.mem_cons.1 hmem with rfl | hmem
      · exact .inr ((Marks.has_add hplace).2 (.inr ⟨rfl, rfl⟩))
      · exact .inl (List.mem_append_right _ hmem)
    · exact .inr ((Marks.has_add hplace).2 (.inl htried))
  · obtain rfl := hahead.eq_of_offset hc hoffset
    exact .inr ⟨inst, hinst, fun way hway => .inl (List.mem_append_left _ hway)⟩

/-- With nothing left to try, all that has been tried is dead. -/
theorem allDead (h : Explored program chars marks []) : AllDead program chars marks := by
  rintro address c hc htried e ⟨n, hrun⟩
  induction hrun with
  | done hend =>
    rcases h _ _ hc htried with hdead | ⟨inst, hinst, -⟩
    · exact hdead _ ⟨0, .done hend⟩
    · cases hinst.symm.trans hend
  | step hinst hnext hrest ih =>
    rcases h _ _ hc htried with hdead | ⟨inst', hinst', htried'⟩
    · exact hdead _ ⟨_, .step hinst hnext hrest⟩
    · cases hinst.symm.trans hinst'
      have htried' := (htried' _ hnext).resolve_left List.not_mem_nil
      exact ih (hc.trans (ahead_of_next hnext)) htried'

end Explored

/-! ## Whole searches -/

/-- What the machine finds, one of the ways leads to. -/
theorem leads_of_work (h : (work program fuel marks ways).2 = some e) :
    ∃ way ∈ ways, Leads program way.1 way.2 e := by
  induction fuel generalizing marks ways with
  | zero => cases h
  | succ fuel ih =>
    match ways with
    | [] => cases h
    | (address, c) :: ways =>
      rw [work] at h
      cases hinst : program[address]? with
      | none =>
        rw [hinst] at h
        cases h
        exact ⟨_, List.mem_cons_self, 0, .done hinst⟩
      | some inst =>
        simp only [hinst] at h
        split at h
        · obtain ⟨way, hway, hleads⟩ := ih h
          exact ⟨way, List.mem_cons_of_mem _ hway, hleads⟩
        · obtain ⟨way, hway, hleads⟩ := ih h
          rcases List.mem_append.1 hway with hway | hway
          · exact ⟨_, List.mem_cons_self, hleads.of_next hinst hway⟩
          · exact ⟨way, List.mem_cons_of_mem _ hway, hleads⟩

/-- The marks of a search in vain: what was marked before is marked, the ways are, and all that is
marked is dead. -/
structure InVain (program : Array Inst) (chars : List Char) (marks marks' : Marks)
    (ways : List (ℕ × Cursor)) : Prop where
  room : marks'.bits.size = chars.length + 1
  kept : ∀ address place, marks.has address place = true → marks'.has address place = true
  tried : ∀ way ∈ ways, marks'.has way.1 way.2.offset = true
  dead : AllDead program chars marks'

/-- If the machine finds nothing, it has tried everything. -/
theorem inVain_of_work (hsearching : Searching program chars fuel marks ways)
    (hexplored : Explored program chars marks ways) (h : (work program fuel marks ways).2 = none) :
    InVain program chars marks (work program fuel marks ways).1 ways := by
  induction fuel generalizing marks ways with
  | zero => cases hsearching.enough
  | succ fuel ih =>
    match ways with
    | [] => exact ⟨hsearching.room, fun _ _ h => h, nofun, hexplored.allDead⟩
    | (address, c) :: ways =>
      obtain ⟨hc, -⟩ := List.forall_mem_cons.1 hsearching.inText
      rw [work] at h ⊢
      cases hinst : program[address]? with
      | none => simp [hinst] at h
      | some inst =>
        simp only [hinst] at h ⊢
        split at h
        next hseen =>
          rw [if_pos hseen]
          have hvain := ih hsearching.drop (hexplored.drop hseen) h
          refine ⟨hvain.room, hvain.kept, ?_, hvain.dead⟩
          exact List.forall_mem_cons.2 ⟨hvain.kept _ _ hseen, hvain.tried⟩
        next hseen =>
          rw [if_neg hseen]
          have hplace : c.offset < marks.bits.size := hsearching.room ▸ offset_lt hc
          have hvain := ih (hsearching.expand hinst (Bool.eq_false_iff.2 hseen))
            (hexplored.expand hc hsearching.room hinst) h
          refine ⟨hvain.room, fun address' place' htried => ?_, ?_, hvain.dead⟩
          · exact hvain.kept _ _ ((Marks.has_add hplace).2 (.inl htried))
          · refine List.forall_mem_cons.2 ⟨?_, fun way hway => ?_⟩
            · exact hvain.kept _ _ ((Marks.has_add hplace).2 (.inr ⟨rfl, rfl⟩))
            · exact hvain.tried way (List.mem_append_right _ hway)

/-- The fuel of a search suffices from each place. -/
theorem searching_start (hc : (Cursor.start chars).Ahead c)
    (hroom : marks.bits.size = chars.length + 1) :
    Searching program chars (2 * (program.size * (chars.length + 1)) + 2) marks [(0, c)] where
  inText := List.forall_mem_singleton.2 hc
  room := hroom
  enough := by
    have hle : (untried program (chars.length + 1) marks).card ≤ _ := card_untried_le _
    rw [List.length_singleton]
    omega

/-- How a search from place to place ends: it comes to a place from which the machine finds an end, and
no run leads to an end from a place before; or there is no such place. -/
inductive Ends (program : Array Inst) (chars : List Char) (c : Cursor) : Option (ℕ × ℕ) → Prop
  | found {d e : Cursor} {marks : Marks} (hd : c.Ahead d) (hroom : marks.bits.size = chars.length + 1)
    (hmarks : AllDead program chars marks)
    (hwork : (work program (2 * (program.size * (chars.length + 1)) + 2) marks [(0, d)]).2 = some e)
    (hbefore : ∀ d', c.Ahead d' → d'.offset < d.offset → Dead program 0 d') :
    Ends program chars c (some (d.offset, e.offset))
  | nowhere (h : ∀ d, c.Ahead d → Dead program 0 d) : Ends program chars c none

/-- The search ends at a place from which the machine finds an end. -/
theorem Ends.here (hroom : marks.bits.size = chars.length + 1) (hmarks : AllDead program chars marks)
    (hwork : (work program (2 * (program.size * (chars.length + 1)) + 2) marks [(0, c)]).2 = some e) :
    Ends program chars c (some (c.offset, e.offset)) :=
  .found (.here c) hroom hmarks hwork fun _ hd' hlt => absurd hd'.offset_le (Nat.not_le_of_lt hlt)

/-- From a place from which no run leads to an end, the search goes on to the next. -/
theorem Ends.next {before : Option Char} {x : Char} {rest : List Char} {offset : ℕ}
    {result : Option (ℕ × ℕ)} (hdead : Dead program 0 ⟨before, x :: rest, offset⟩)
    (h : Ends program chars ⟨some x, rest, offset + 1⟩ result) :
    Ends program chars ⟨before, x :: rest, offset⟩ result := by
  cases h with
  | found hd hroom hmarks hwork hbefore =>
    refine .found (.next hd) hroom hmarks hwork fun d' hd' hlt => ?_
    cases hd' with
    | here => exact hdead
    | next hd' => exact hbefore d' hd' hlt
  | nowhere hnowhere =>
    refine .nowhere fun d hd => ?_
    cases hd with
    | here => exact hdead
    | next hd => exact hnowhere d hd

/-- Where the machine finds nothing from a place, no run leads to an end from there, and the marks are
good for the next place. -/
theorem dead_of_work (hc : (Cursor.start chars).Ahead c) (hroom : marks.bits.size = chars.length + 1)
    (hmarks : AllDead program chars marks)
    (hwork : work program (2 * (program.size * (chars.length + 1)) + 2) marks [(0, c)] =
      (marks', none)) :
    Dead program 0 c ∧ marks'.bits.size = chars.length + 1 ∧ AllDead program chars marks' := by
  have hvain := inVain_of_work (searching_start hc hroom) (.of_allDead hmarks)
    (congrArg Prod.snd hwork)
  rw [hwork] at hvain
  exact ⟨hvain.dead 0 _ hc (hvain.tried _ List.mem_cons_self), hvain.room, hvain.dead⟩

theorem ends_searchFrom {before : Option Char} {offset : ℕ} {rest : List Char}
    (hc : (Cursor.start chars).Ahead ⟨before, rest, offset⟩)
    (hroom : marks.bits.size = chars.length + 1) (hmarks : AllDead program chars marks) :
    Ends program chars ⟨before, rest, offset⟩
      (searchFrom program (2 * (program.size * (chars.length + 1)) + 2) marks before offset rest) := by
  induction rest generalizing before offset marks with
  | nil =>
    unfold searchFrom
    cases hwork : work program (2 * (program.size * (chars.length + 1)) + 2) marks
        [(0, ⟨before, [], offset⟩)] with
    | mk marks' result =>
      cases result with
      | some e => exact .here hroom hmarks (congrArg Prod.snd hwork)
      | none =>
        refine .nowhere fun d hd => ?_
        cases hd
        exact (dead_of_work hc hroom hmarks hwork).1
  | cons x rest ih =>
    unfold searchFrom
    cases hwork : work program (2 * (program.size * (chars.length + 1)) + 2) marks
        [(0, ⟨before, x :: rest, offset⟩)] with
    | mk marks' result =>
      cases result with
      | some e => exact .here hroom hmarks (congrArg Prod.snd hwork)
      | none =>
        obtain ⟨hdead, hroom', hmarks'⟩ := dead_of_work hc hroom hmarks hwork
        exact .next hdead (ih (hc.trans (.next (.here _))) hroom' hmarks')

/-- From the start of a text the machine searches like this. -/
theorem ends_search (program : Array Inst) (chars : List Char) :
    Ends program chars (.start chars) (search program chars) := by
  refine ends_searchFrom (.here _) (by simp [Marks.none]) fun address c _ htried => ?_
  rw [Marks.has_none] at htried
  cases htried

end Machine

/-! ## The engine -/

/-- The program of a pattern leads to its end where the pattern matches. -/
theorem leads_program_iff {node : Node} : Leads node.program 0 c e ↔ node.Matches c e := by
  have hsegment := Node.segment node.laidOut_program
  have hend := node.getElem?_program_size
  constructor
  · rintro ⟨n, hrun⟩
    obtain ⟨d, hd, m, -, hrest⟩ := hsegment.sound hrun
    cases hrest with
    | done => exact hd
    | step hinst => cases hend.symm.trans hinst
  · exact fun h => hsegment.complete h ⟨0, .done hend⟩

/-- What the machine's engine takes is searched for by the machine. -/
theorem compile?_machine {source : List Char} {node : Node} {find : Search}
    (h : Engine.machine.compile? source node = some find) : find = Machine.search node.program := by
  unfold Engine.machine at h
  dsimp only at h
  split at h <;> cases h
  rfl

/-- The machine reports matches only, and misses none that begins before the one that it reports. -/
theorem Engine.machine_findsMatches : Engine.machine.FindsMatches where
  sound {source node find chars first last} hfind hresult := by
    obtain rfl := compile?_machine hfind
    have hends := Machine.ends_search node.program chars
    rw [hresult] at hends
    cases hends with
    | @found d e _ hd _ _ hwork _ =>
      obtain ⟨way, hway, hleads⟩ := Machine.leads_of_work hwork
      obtain rfl := List.mem_singleton.1 hway
      exact ⟨d, e, hd, leads_program_iff.1 hleads, rfl, rfl⟩
  leftmost {source node find chars c e} hfind hc hmatches := by
    obtain rfl := compile?_machine hfind
    have hleads := leads_program_iff.2 hmatches
    have hends := Machine.ends_search node.program chars
    generalize Machine.search node.program chars = result at hends
    cases hends with
    | @found d e' _ _ _ _ _ hbefore =>
      exact ⟨_, _, rfl, Nat.le_of_not_lt fun hlt => hbefore c hc hlt e hleads⟩
    | nowhere hnowhere => exact absurd hleads (hnowhere c hc e)

end Descent.Pattern
