import Descent.Proofs.Conservation
import Descent.Proofs.Pattern.Brackets
import Descent.Proofs.Pattern.Machine
import Descent.Proofs.Pattern.Preference

/-!
# Patterns tied to the start of a text

To tie a pattern to the start of a text, its source is put into a group, after a condition that holds
nowhere else. What is read inside of the group is what is read of the source by itself, unless the
source ends a group that it has not begun, and so the group it is put in (`Strays`), or ends in a
comment, which takes the end of the group. A text that does not stray gives a parser exactly if it is
a pattern by itself, if no comment does this, and if the limits are kept; a match then begins where
the input begins (`anchored_of_not_strays`). A text that strays may give a parser whose match begins
anywhere (`not_anchored_of_strays`).
-/

namespace Descent.Pattern

variable {sets : Sets} {f : Flags} {chars chars' rest rest' : List Char} {c : Char} {s s' : ReadState}

/-! ## Pieces with a parenthesis after them -/

/-- What a parenthesis introduces does not depend on what comes at the end. -/
theorem groupStart_append (chars : List Char) :
    groupStart (chars ++ [')']) = ((groupStart chars).1, (groupStart chars).2 ++ [')']) := by
  fun_cases groupStart chars
  case case6 rest hahead hnot =>
    cases rest with
    | nil => rfl
    | cons c rest =>
      have hc : c ≠ '=' ∧ c ≠ '!' := by simp_all
      simp [groupStart, hc]
  case case7 rest _ _ _ _ _ _ =>
    cases rest with
    | nil => rfl
    | cons c rest =>
      have hc : c ≠ '=' ∧ c ≠ '!' ∧ c ≠ '<' := by simp_all
      cases rest with
      | nil => simp [groupStart, hc]
      | cons d rest =>
        by_cases hletter : c = 'P'
        · have hd : d ≠ '<' := by simp_all
          simp [groupStart, hletter, hd]
        · simp [groupStart, hc, hletter]
  case case8 =>
    cases chars with
    | nil => rfl
    | cons c chars =>
      have hc : c ≠ '?' := by simp_all
      simp [groupStart, hc]
  all_goals rfl

/-- A piece can only be lost at the end of the text, or where nothing can be read after it. -/
def Likeness.piece : Likeness (ReadState × List Char) :=
  ⟨fun p q => p.1 = q.1 ∧ Followed p.2 q.2, fun q => q.2 = [] ∨ Stuck q.1.flags q.2⟩

open Likeness

/-- After the start of a group, or flags, the parenthesis is left, but it may end flags. -/
theorem agree_readGroup (h : Followed chars chars') :
    Agree piece (readGroup s chars) (readGroup s chars') := by
  have hstart : taken.beside.alike (groupStart (s.flags.skip chars))
      (groupStart (s.flags.skip chars')) := by
    rcases h.skip s.flags with heq | ⟨heq, heq'⟩
    · rw [heq, groupStart_append]
      exact ⟨rfl, .inl rfl⟩
    · rw [heq, heq']
      exact ⟨rfl, .inr ⟨rfl, rfl⟩⟩
  unfold readGroup
  generalize groupStart (s.flags.skip chars) = start at hstart
  generalize groupStart (s.flags.skip chars') = start' at hstart
  obtain ⟨kind, rest⟩ := start
  obtain ⟨_, rest'⟩ := start'
  obtain ⟨rfl, hrest⟩ := hstart
  cases kind with
  | condition => exact .none
  | named =>
    refine (agree_readGroupName hrest []).bind ?_ ?_
    · rintro ⟨name, rest⟩ ⟨_, rest'⟩ ⟨rfl, hrest⟩
      exact .ite (fun _ => .none) fun _ => .some ⟨rfl, hrest⟩
    · rintro ⟨name, _⟩ rfl
      exact .ite (fun _ => .none) fun _ => .some (.inl rfl)
  | flags =>
    refine (agree_readFlags hrest s.flags []).bind ?_ ?_
    · rintro ⟨flags, seen, last, rest⟩ ⟨_, _, _, rest'⟩ ⟨rfl, rfl, rfl, hrest⟩
      refine .ite (fun _ => .some ⟨rfl, hrest⟩) fun _ => .ite (fun _ => .none) fun _ => ?_
      exact .some ⟨rfl, hrest⟩
    · rintro ⟨flags, seen, last, _⟩ rfl
      refine .ite (fun _ => .some (.inl rfl)) fun _ => .ite (fun _ => .none) fun _ => ?_
      exact .some (.inl rfl)
  | plain => exact .some ⟨rfl, hrest⟩

/-- After a repetition the parenthesis is left. -/
theorem agree_readLoop (h : Followed rest rest') (least : Nat) (most : Option Nat) :
    Agree piece (s.readLoop least most rest) (s.readLoop least most rest') := by
  obtain ⟨hlazy, hrest⟩ := h.marked (show '?' ≠ ')' by decide)
  simp only [ReadState.readLoop, ← hlazy]
  exact .map_same fun s => ⟨rfl, hrest⟩

/-- Nothing that an escape writes changes the flags. -/
theorem flags_of_pushAtom {a : Atom} (h : s.pushAtom a = some s') : s'.flags = s.flags := by
  unfold ReadState.pushAtom at h
  split at h
  · split at h <;> cases h
    rfl
  all_goals
    cases h
    rfl

/-- What is read of one piece does not depend on the parenthesis, but the piece may take it. -/
theorem agree_readPiece (sets : Sets) (h : Followed rest rest') (c : Char) :
    Agree piece (readPiece sets s c rest) (readPiece sets s c rest') := by
  unfold readPiece
  refine .ite (fun _ => agree_readGroup h) fun _ => ?_
  refine .ite (fun _ => .map_same fun s => ⟨rfl, h⟩) fun _ => ?_
  refine .ite (fun _ => .some ⟨rfl, h⟩) fun _ => .ite (fun _ => ?_) fun _ => ?_
  · refine (agree_readClass h).bind ?_ ?_
    · rintro ⟨set, depth, rest⟩ ⟨_, _, rest'⟩ ⟨rfl, rfl, hrest⟩
      exact .some ⟨rfl, hrest⟩
    · rintro ⟨set, depth, _⟩ rfl
      exact .some (.inl rfl)
  refine .ite (fun _ => agree_readLoop h _ _) fun _ => ?_
  refine .ite (fun _ => agree_readLoop h _ _) fun _ => ?_
  refine .ite (fun _ => agree_readLoop h _ _) fun _ => .ite (fun _ => ?_) fun _ => ?_
  · refine (agree_readCounts h).bind ?_ ?_
    · rintro ⟨least, most, rest⟩ ⟨_, _, rest'⟩ ⟨rfl, rfl, hrest⟩
      exact agree_readLoop (hrest.skip s.flags) _ _
    · rintro ⟨least, most, _⟩ rfl
      dsimp only
      rw [s.flags.skip_nil]
      exact .map_value fun s => .inl rfl
  refine .ite (fun _ => ?_) fun _ => .ite (fun _ => .map_same fun set => ⟨rfl, h⟩) fun _ => ?_
  · refine (agree_readEscape h).bind ?_ ?_
    · rintro ⟨a, rest⟩ ⟨_, rest'⟩ ⟨rfl, hrest⟩
      exact .bind_same fun s => .some ⟨rfl, hrest⟩
    · rintro ⟨a, rest'⟩ hlost
      have hflags : Only (fun s' => s'.flags = s.flags) (s.pushAtom a) := fun _ => flags_of_pushAtom
      refine hflags.bind fun s' hs' => ?_
      refine .some (hlost.imp_right fun hstuck => ?_)
      rw [hs']
      exact hstuck.2
  exact .ite (fun _ => .some ⟨rfl, h⟩) fun _ => .ite (fun _ => .some ⟨rfl, h⟩) fun _ => .some ⟨rfl, h⟩

/-- Where a brace is followed by nothing but the parenthesis no piece can be read. -/
theorem readPieces_of_stuck {fuel : Nat} (h : Stuck s.flags chars) :
    readPieces sets fuel s chars = none := by
  obtain ⟨rest, rfl, hrest⟩ := h
  cases fuel with
  | zero => rfl
  | succ fuel =>
    have hcounts : readCounts s.flags rest = none := by
      have hspan : s.flags.span Char.isDigit false [')'] = ([], [')']) := by
        simp [Flags.span, isBlank_close]
      simp [readCounts, hrest, readCount, isBlank_close, hspan]
    rw [readPieces_of_cons (s.flags.skip_cons (by decide) (by decide) rest)]
    simp [readPiece, hcounts]

/-! ## Pieces inside of groups -/

/-- Groups that are open around everything, innermost first: the flags before each, and what stands
before it. -/
abbrev Frames := List (Flags × Branches)

/-- The state with more groups open around all that has been read. -/
def ReadState.within (frames : Frames) (s : ReadState) : ReadState :=
  { s with outer := s.outer ++ frames }

/-- The same is read inside of groups, which can only be lost if `stray` holds. -/
def Likeness.within (frames : Frames) (stray : Prop) : Likeness (ReadState × List Char) :=
  ⟨fun p q => q.1 = p.1.within frames ∧ q.2 = p.2, fun _ => stray⟩

variable {frames : Frames} {stray : Prop}

theorem closeGroup_within (h : s.closeGroup = some s') :
    (s.within frames).closeGroup = some (s'.within frames) := by
  unfold ReadState.closeGroup at h ⊢
  unfold ReadState.within
  cases houter : s.outer with
  | nil => simp [houter] at h
  | cons top outer =>
    simp only [houter, Option.some.injEq] at h
    subst h
    rfl

theorem loopLast_within {least : Nat} {most : Option Nat} {greedy : Bool} :
    (s.within frames).loopLast least most greedy =
      (s.loopLast least most greedy).map (·.within frames) := by
  unfold ReadState.loopLast ReadState.within
  dsimp only
  cases hparts : s.current.parts with
  | nil => rfl
  | cons p ps =>
    dsimp only
    cases p.repeatable with
    | false => rfl
    | true => rfl

theorem pushAtom_within (a : Atom) :
    (s.within frames).pushAtom a = (s.pushAtom a).map (·.within frames) := by
  cases a with
  | char c byte =>
    unfold ReadState.pushAtom ReadState.within
    dsimp only
    split <;> rfl
  | set | look => rfl

/-- A group starts inside of groups as it does outside. -/
theorem readGroup_within (chars : List Char) :
    Agree (.within frames stray) (readGroup s chars) (readGroup (s.within frames) chars) := by
  unfold readGroup
  rw [show (s.within frames).flags = s.flags from rfl]
  obtain ⟨kind, rest⟩ := groupStart (s.flags.skip chars)
  cases kind with
  | condition => exact .none
  | named =>
    exact .bind_same fun (name, rest) => .ite (fun _ => .none) fun _ => .some ⟨rfl, rfl⟩
  | flags =>
    refine .bind_same fun (flags, seen, last, rest) => ?_
    refine .ite (fun _ => .some ⟨rfl, rfl⟩) fun _ => .ite (fun _ => .none) fun _ => ?_
    exact .some ⟨rfl, rfl⟩
  | plain => exact .some ⟨rfl, rfl⟩

/-- A repetition is read inside of groups as it is outside. -/
theorem readLoop_within (least : Nat) (most : Option Nat) (rest : List Char) :
    Agree (.within frames stray) (s.readLoop least most rest)
      ((s.within frames).readLoop least most rest) := by
  simp only [ReadState.readLoop, loopLast_within, Option.map_map]
  exact .map_same fun s => ⟨rfl, rfl⟩

/-- One piece of a pattern is read inside of groups as it is outside, but for a parenthesis that ends
the innermost of them. -/
theorem readPiece_within (sets : Sets) (frames : Frames) (c : Char) (rest : List Char) :
    Agree (.within frames (c = ')' ∧ s.outer = [])) (readPiece sets s c rest)
      (readPiece sets (s.within frames) c rest) := by
  unfold readPiece
  dsimp only
  rw [show (s.within frames).flags = s.flags from rfl]
  refine .ite (fun _ => readGroup_within rest) fun _ => .ite (fun hc => ?_) fun _ => ?_
  · cases hclose : s.closeGroup with
    | none =>
      have houter : s.outer = [] := by
        unfold ReadState.closeGroup at hclose
        split at hclose
        · assumption
        · cases hclose
      exact .lost (.map_value fun _ => ⟨hc, houter⟩)
    | some s' =>
      rw [closeGroup_within hclose]
      exact .some ⟨rfl, rfl⟩
  refine .ite (fun _ => .some ⟨rfl, rfl⟩) fun _ => .ite (fun _ => ?_) fun _ => ?_
  · exact .bind_same fun (set, depth, rest) => .some ⟨rfl, rfl⟩
  refine .ite (fun _ => readLoop_within _ _ _) fun _ => ?_
  refine .ite (fun _ => readLoop_within _ _ _) fun _ => ?_
  refine .ite (fun _ => readLoop_within _ _ _) fun _ => .ite (fun _ => ?_) fun _ => ?_
  · exact .bind_same fun (least, most, rest) => readLoop_within _ _ _
  refine .ite (fun _ => ?_) fun _ => .ite (fun _ => .map_same fun set => ⟨rfl, rfl⟩) fun _ => ?_
  · refine .bind_same fun (a, rest) => ?_
    dsimp only
    rw [pushAtom_within]
    cases s.pushAtom a with
    | none => exact .none
    | some s => exact .some ⟨rfl, rfl⟩
  exact .ite (fun _ => .some ⟨rfl, rfl⟩) fun _ => .ite (fun _ => .some ⟨rfl, rfl⟩) fun _ =>
    .some ⟨rfl, rfl⟩

/-! ## Whole patterns inside of groups -/

/-- Reading comes to a parenthesis that ends a group which has not begun. -/
inductive Strays (sets : Sets) : ReadState → List Char → Prop
  | here {s : ReadState} {chars rest : List Char} (hskip : s.flags.skip chars = ')' :: rest)
    (houter : s.outer = []) : Strays sets s chars
  | later {s s' : ReadState} {chars rest rest' : List Char} {c : Char}
    (hskip : s.flags.skip chars = c :: rest) (hpiece : readPiece sets s c rest = some (s', rest'))
    (hrest : Strays sets s' rest') : Strays sets s chars

/-- A text that strays is no pattern. -/
theorem Strays.readPieces_eq (h : Strays sets s chars) (fuel : Nat) :
    readPieces sets fuel s chars = none := by
  induction h generalizing fuel with
  | here hskip houter =>
    cases fuel with
    | zero => rfl
    | succ fuel =>
      rw [readPieces_of_cons hskip]
      simp [readPiece, ReadState.closeGroup, houter]
  | later hskip hpiece _ ih =>
    cases fuel with
    | zero => rfl
    | succ fuel => rw [readPieces_of_cons hskip, hpiece, Option.bind_some, ih]

/-- A text is read to the end of a pattern inside of groups, the parenthesis being taken by a comment,
or by the innermost of them. -/
inductive Closes (s' : ReadState) (read : Frames → Option ReadState) : Prop
  | swallowed (h : ∀ frames, read frames = some (s'.within frames))
  | closed (h : ∀ frames, read frames = (s'.within frames).closeGroup)

/-- After a piece that can only be read with the parenthesis at least one group stays open. -/
theorem outer_ne_nil_of_lost {fuel : Nat} {next : ReadState × List Char} {t : ReadState}
    (hshort : readPiece sets s c rest = none) (hstray : ¬(c = ')' ∧ s.outer = []))
    (hlong : readPiece sets (s.within frames) c (rest ++ [')']) = some next)
    (hread : readPieces sets fuel next.1 next.2 = some t) (hframes : frames ≠ []) : t.outer ≠ [] := by
  have hwithin := readPiece_within (s := s) sets frames c (rest ++ [')'])
  have hpiece := agree_readPiece (s := s) sets (.inl rfl : Followed rest _) c
  rw [hlong] at hwithin
  rw [hshort] at hpiece
  cases hplain : readPiece sets s c (rest ++ [')']) with
  | none =>
    rw [hplain] at hwithin
    exact absurd hwithin hstray
  | some p =>
    obtain ⟨s₁, rest₁⟩ := p
    obtain ⟨s₁', rest₁'⟩ := next
    rw [hplain] at hwithin hpiece
    obtain ⟨rfl, rfl⟩ : s₁' = s₁.within frames ∧ rest₁' = rest₁ := hwithin
    rcases hpiece with hnil | hstuck
    · obtain rfl : rest₁' = [] := hnil
      cases fuel with
      | zero => cases hread
      | succ fuel =>
        rw [readPieces_of_nil (Flags.skip_nil _)] at hread
        cases hread
        simp [ReadState.within, hframes]
    · rw [readPieces_of_stuck (s := s₁.within frames) hstuck] at hread
      cases hread

/-- Where a text has been read to its end, the parenthesis ends a group, if it is left. -/
theorem closes_of_nil {fuel : Nat} (h : Followed [] (s.flags.skip chars'))
    (hfuel : chars'.length < fuel + 1) :
    Closes s fun frames => readPieces sets (fuel + 1) (s.within frames) chars' := by
  rcases h with hskip | ⟨_, hskip⟩
  · have hlength := s.flags.length_skip_le (Nat.le_of_lt_succ hfuel)
    rw [hskip] at hlength
    obtain ⟨fuel, rfl⟩ := Nat.exists_eq_add_of_le' hlength
    refine .closed fun frames => ?_
    have hpiece : readPiece sets (s.within frames) ')' [] =
      (s.within frames).closeGroup.map (·, []) := rfl
    rw [readPieces_of_cons (s := s.within frames) hskip, hpiece]
    cases (s.within frames).closeGroup with
    | none => rfl
    | some s' => exact readPieces_of_nil s'.flags.skip_nil
  · exact .swallowed fun frames => readPieces_of_nil (s := s.within frames) hskip

/-- After a piece reading goes on inside of groups as it does outside. -/
theorem readPieces_within_of_cons {fuel : Nat} {s₁ : ReadState} {rest₁ : List Char}
    (hskip : s.flags.skip chars = c :: rest) (hpiece : readPiece sets s c rest = some (s₁, rest₁))
    (frames : Frames) :
    readPieces sets (fuel + 1) (s.within frames) chars =
      readPieces sets fuel (s₁.within frames) rest₁ := by
  have hinside := readPiece_within (s := s) sets frames c rest
  rw [hpiece] at hinside
  obtain ⟨⟨t, left⟩, hsame, hwithin⟩ := hinside.exists_of_some
  obtain ⟨rfl, rfl⟩ : t = s₁.within frames ∧ left = rest₁ := hsame
  rw [readPieces_of_cons (s := s.within frames) hskip, hwithin]
  rfl

/-- With a parenthesis after it a text is read inside of groups as it is by itself. If it is no
pattern by itself, either it ends a group that it has not begun, or at least one group stays open. The
induction is on the fuel, with one piece read at each step. -/
theorem readPieces_close {fuel : Nat} (h : Followed chars chars') (hfuel : chars'.length < fuel) :
    (∃ s', readPieces sets fuel s chars = some s' ∧
        Closes s' fun frames => readPieces sets fuel (s.within frames) chars') ∨
      readPieces sets fuel s chars = none ∧ (Strays sets s chars ∨
        ∀ frames t, readPieces sets fuel (s.within frames) chars' = some t → frames ≠ [] →
          t.outer ≠ []) := by
  induction fuel generalizing s chars chars' with
  | zero => exact absurd hfuel (Nat.not_lt_zero _)
  | succ fuel ih =>
    have hskip := h.skip s.flags
    have hlength := s.flags.length_skip_le (Nat.le_of_lt_succ hfuel)
    cases htext : s.flags.skip chars with
    | nil =>
      rw [htext] at hskip
      exact .inl ⟨s, readPieces_of_nil htext, closes_of_nil hskip hfuel⟩
    | cons c rest =>
      rw [htext] at hskip
      have hskip : s.flags.skip chars' = c :: (rest ++ [')']) := hskip.eq_append (by simp)
      rw [hskip, List.length_cons] at hlength
      have hpiece := agree_readPiece (s := s) sets (.inl rfl : Followed rest _) c
      rw [readPieces_of_cons htext]
      cases hshort : readPiece sets s c rest with
      | some next =>
        obtain ⟨s₁, rest₁⟩ := next
        rw [hshort] at hpiece
        obtain ⟨⟨s₁', rest₁'⟩, hsame, hlong⟩ := hpiece.exists_of_some
        obtain ⟨rfl, hrest⟩ : s₁ = s₁' ∧ Followed rest₁ rest₁' := hsame
        have hleft : rest₁'.length < fuel :=
          Nat.lt_of_le_of_lt (leaves_readPiece (Nat.le_refl _) _ hlong) hlength
        simp only [readPieces_within_of_cons hskip hlong, Option.bind_some]
        refine (ih hrest hleft).imp_right fun ⟨hnone, hstray⟩ => ⟨hnone, ?_⟩
        exact hstray.imp_left (.later htext hshort)
      | none =>
        refine .inr ⟨rfl, ?_⟩
        by_cases hstray : c = ')' ∧ s.outer = []
        · obtain ⟨rfl, houter⟩ := hstray
          exact .inl (.here htext houter)
        · refine .inr fun frames t hread hframes => ?_
          rw [readPieces_of_cons (s := s.within frames) hskip] at hread
          obtain ⟨next, hlong, hread⟩ := Option.bind_eq_some_iff.1 hread
          exact outer_ne_nil_of_lost hshort hstray hlong hread hframes

/-! ## The anchor -/

/-- A pattern with the start of the text before it. -/
def Node.tied (node : Node) : Node := .seq (.look .textStart) node

/-- The group that is open after what is put before a pattern. Before it stands the condition. -/
def anchorFrame : Flags × Branches := (.initial, ⟨[], [⟨.look .textStart, 0, true⟩]⟩)

/-- What is put before a pattern opens a group. -/
theorem readPieces_anchorLead (fuel : Nat) (rest : List Char) :
    readPieces sets (fuel + 2) .initial (anchorLead ++ rest) =
      readPieces sets fuel (ReadState.initial.within [anchorFrame]) rest := by
  rfl

/-- What has been read, if every group has ended. -/
def ReadState.whole? (s : ReadState) : Option Part :=
  if s.outer.isEmpty then some s.current.close else none

theorem ReadState.whole?_eq_none (h : s.outer ≠ []) : s.whole? = none :=
  if_neg fun hempty => h (List.isEmpty_iff.1 hempty)

theorem read?_eq {source : List Char} {fuel : Nat} (h : source.length < fuel) :
    Part.read? sets source = (readPieces sets fuel .initial source).bind ReadState.whole? := by
  rw [readPieces_fuel h (Nat.lt_succ_self _)]
  rfl

theorem read?_anchored_eq {source : List Char} {fuel : Nat}
    (h : (source ++ [')']).length < fuel) : Part.read? sets (anchored source) =
      (readPieces sets fuel (ReadState.initial.within [anchorFrame]) (source ++ [')'])).bind
        ReadState.whole? := by
  have hlength : (anchored source).length < fuel + 5 + 2 := by
    simp only [anchored, anchorLead, List.length_append, List.length_cons, List.length_nil] at h ⊢
    omega
  rw [read?_eq hlength, anchored, List.append_assoc, readPieces_anchorLead,
    readPieces_fuel (Nat.lt_add_right 5 h) h]

/-- The parenthesis ends the group that is put around a pattern, if no other group is open. -/
theorem whole?_of_closeGroup (h : s.outer = []) :
    (s.within [anchorFrame]).closeGroup.bind ReadState.whole? =
      some ⟨s.current.close.node.tied, s.current.close.depth + 2, true⟩ := by
  simp [ReadState.closeGroup, ReadState.within, h, ReadState.whole?, ReadState.push, Branches.close,
    anchorFrame, inSequence, asAlternatives, Node.tied]

/-- Where another group is open, the parenthesis ends that one. -/
theorem whole?_of_closeGroup_of_ne (h : s.outer ≠ []) :
    (s.within [anchorFrame]).closeGroup.bind ReadState.whole? = none := by
  obtain ⟨top, outer, houter⟩ := List.exists_cons_of_ne_nil h
  simp [ReadState.closeGroup, ReadState.within, houter, ReadState.whole?, ReadState.push]

/-- A text that does not stray is read with the start of the text before it exactly if it is a pattern
by itself, and no comment at its end takes the parenthesis that ends the group. -/
theorem read?_anchored {source : List Char} (h : ¬Strays sets .initial source) (part' : Part) :
    Part.read? sets (anchored source) = some part' ↔
      ∃ part, Part.read? sets source = some part ∧ Part.read? sets (source ++ [')']) = none ∧
        part' = ⟨part.node.tied, part.depth + 2, true⟩ := by
  have hlt : (source ++ [')']).length < source.length + 2 := by simp
  have hlt' : source.length < source.length + 2 := by omega
  have hinitial : ReadState.initial.within [] = .initial := rfl
  rw [read?_anchored_eq hlt, read?_eq hlt, read?_eq hlt']
  rcases readPieces_close (s := .initial) (.inl rfl) hlt with
    ⟨s, hread, hcloses⟩ | ⟨hread, hstray | hopen⟩
  · have hplain : s.within [] = s := by simp [ReadState.within]
    rcases hcloses with hall | hall
    · have houter : (s.within [anchorFrame]).outer ≠ [] := by simp [ReadState.within]
      rw [hall, ← hinitial, hall, hplain, hinitial, hread]
      simp only [Option.bind_some, ReadState.whole?_eq_none houter]
      constructor
      · exact nofun
      · rintro ⟨part, hsome, hnone, -⟩
        rw [hsome] at hnone
        cases hnone
    · rw [hall, ← hinitial, hall, hplain, hinitial, hread, Option.bind_some]
      by_cases houter : s.outer = []
      · rw [whole?_of_closeGroup houter]
        simp [ReadState.closeGroup, ReadState.whole?, houter, eq_comm]
      · rw [whole?_of_closeGroup_of_ne houter, ReadState.whole?_eq_none houter]
        simp
  · exact absurd hstray h
  · have hlong : (readPieces sets (source.length + 2) (ReadState.initial.within [anchorFrame])
        (source ++ [')'])).bind ReadState.whole? = none := by
      refine Option.bind_eq_none_iff.2 fun s hs => ReadState.whole?_eq_none ?_
      exact hopen _ s hs (by simp)
    rw [hlong, hread]
    simp

/-! ## Searches for tied patterns -/

section Search

variable {engine : Engine} {source : List Char} {node : Node} {find : Search} {d e : Cursor} {n : ℕ}

/-- From the start of the text a tied pattern matches where the pattern does, from elsewhere nowhere. -/
theorem Node.tied_matches_iff {d : Cursor} (hd : (Cursor.start chars).Ahead d) :
    node.tied.Matches d e ↔ d = .start chars ∧ node.Matches d e := by
  have hstart : Look.textStart.holds d = true ↔ d = .start chars := by
    rcases hd.eq_or_before_isSome with rfl | hbefore
    · exact iff_of_true rfl rfl
    · obtain ⟨b, hb⟩ := Option.isSome_iff_exists.1 hbefore
      refine iff_of_false (by simp [Look.holds, hb]) ?_
      rintro rfl
      cases hb
  simp only [tied, Matches, hstart]
  constructor
  · rintro ⟨_, ⟨hd, rfl⟩, he⟩
    exact ⟨hd, he⟩
  · rintro ⟨hd, he⟩
    exact ⟨d, ⟨hd, rfl⟩, he⟩

/-- From the start of the text a tied pattern prefers what the pattern prefers. -/
theorem Node.head?_ends_tied (node : Node) (chars : List Char) :
    (node.tied.ends (.start chars)).head? = (node.ends (.start chars)).head? := by
  simp [tied, ends, Look.holds, Cursor.start, Cursor.head?_distinct]

/-- A search for a tied pattern finds a match at the start of the text, if there is one, and the
preferred one if the engine prefers it. -/
theorem Engine.FindsMatches.search_tied (hengine : engine.FindsMatches)
    (hfind : engine.compile? source node.tied = some find) (chars : List Char) :
    (find chars = none ∧ ∀ n, ¬node.MatchesFirst chars n) ∨
      ∃ n, find chars = some (0, n) ∧ node.MatchesFirst chars n ∧
        (engine.PrefersFirst source node.tied →
          (node.ends (.start chars)).head?.map Cursor.offset = some n) := by
  cases hresult : find chars with
  | none =>
    refine .inl ⟨rfl, ?_⟩
    rintro n ⟨e, he, -⟩
    have hhere := Cursor.Ahead.here (.start chars)
    obtain ⟨first, last, hfound, -⟩ :=
      hengine.leftmost hfind hhere ((Node.tied_matches_iff hhere).2 ⟨rfl, he⟩)
    cases hresult.symm.trans hfound
  | some place =>
    obtain ⟨first, last⟩ := place
    obtain ⟨c, e, hc, hmatches, rfl, rfl⟩ := hengine.sound hfind hresult
    obtain ⟨rfl, he⟩ := (Node.tied_matches_iff hc).1 hmatches
    refine .inr ⟨e.offset, rfl, ⟨e, he, rfl⟩, fun hprefers => ?_⟩
    rw [← Node.head?_ends_tied]
    exact hprefers hfind hc hresult

/-- A tied pattern takes what it matches at the start of the text, and nothing stands before that. -/
theorem found_tied (hengine : engine.FindsMatches)
    (hfind : engine.compile? source node.tied = some find) (t : Text) :
    (Step.found find t = .failure t ∧ ∀ n, ¬node.MatchesFirst t.chars n) ∨
      ∃ n, Step.found find t = .success (t.chars.take n) (t.drop n) ∧ node.MatchesFirst t.chars n ∧
        (engine.PrefersFirst source node.tied →
          (node.ends (.start t.chars)).head?.map Cursor.offset = some n) := by
  unfold Step.found
  rcases hengine.search_tied hfind t.chars with ⟨hnone, hfails⟩ | ⟨n, hsome, hmatches⟩
  · exact .inl ⟨by rw [hnone], hfails⟩
  · exact .inr ⟨n, by rw [hsome]; rfl, hmatches⟩

end Search

/-! ## Tied patterns -/

variable {engine : Engine}

/-- What an engine takes by itself is read as a pattern, and within the limits. -/
theorem engine_read?_eq_some_iff {source : List Char} {node : Node} {find : Search} :
    engine.read? source = some (node, find) ↔ ∃ part, Part.read? engine.sets source = some part ∧
      part.depth ≤ maxDepth ∧ engine.compile? source part.node = some find ∧ part.node = node := by
  simp [Engine.read?, Option.bind_eq_some_iff]

/-- A pattern does not stray. -/
theorem not_strays {source : List Char} {node : Node} {find : Search}
    (h : engine.read? source = some (node, find)) : ¬Strays engine.sets .initial source := by
  intro hstrays
  obtain ⟨part, hpart, -⟩ := engine_read?_eq_some_iff.1 h
  rw [read?_eq (Nat.lt_succ_self _), hstrays.readPieces_eq] at hpart
  cases hpart

section Anchored

variable {source : String} (h : ¬Strays engine.sets .initial source.toList)

include h

/-- What a text that does not stray gives is its own pattern, tied to the start, which nests two levels
deeper. -/
theorem ofSource?_eq_some_iff {pattern : Pattern} : ofSource? engine source = some pattern ↔
    ∃ part, Part.read? engine.sets source.toList = some part ∧
      Part.read? engine.sets (source.toList ++ [')']) = none ∧ part.depth + 2 ≤ maxDepth ∧
      ∃ find, engine.compile? (anchored source.toList) part.node.tied = some find ∧
        ⟨source, find⟩ = pattern := by
  simp only [ofSource?, Option.map_eq_some_iff, Prod.exists, engine_read?_eq_some_iff, read?_anchored h]
  constructor
  · rintro ⟨_, find, ⟨_, ⟨part, hpart, hplain, rfl⟩, hdepth, hfind, rfl⟩, hpattern⟩
    exact ⟨part, hpart, hplain, hdepth, find, hfind, hpattern⟩
  · rintro ⟨part, hpart, hplain, hdepth, find, hfind, hpattern⟩
    exact ⟨_, find, ⟨_, ⟨part, hpart, hplain, rfl⟩, hdepth, hfind, rfl⟩, hpattern⟩

/-- A text that does not stray gives a parser exactly if it is read as a pattern by itself, no comment
takes a parenthesis after it, and the limits are kept. -/
theorem isSome_ofSource?_iff : (ofSource? engine source).isSome ↔
    ∃ part, Part.read? engine.sets source.toList = some part ∧
      Part.read? engine.sets (source.toList ++ [')']) = none ∧ part.depth + 2 ≤ maxDepth ∧
      (engine.compile? (anchored source.toList) part.node.tied).isSome := by
  simp only [Option.isSome_iff_exists, ofSource?_eq_some_iff h]
  constructor
  · rintro ⟨_, part, hpart, hplain, hdepth, find, hfind, -⟩
    exact ⟨part, hpart, hplain, hdepth, find, hfind⟩
  · rintro ⟨part, hpart, hplain, hdepth, find, hfind⟩
    exact ⟨_, part, hpart, hplain, hdepth, find, hfind, rfl⟩

end Anchored

/-- A group around a pattern, and a condition before it, make no difference to whether it is taken:
no comment takes the parenthesis that ends the group, and the limits leave room for both. -/
structure Engine.HasRoom (engine : Engine) (source : List Char) : Prop where
  uncommented : Part.read? engine.sets (source ++ [')']) = none
  depth : ∀ {part}, Part.read? engine.sets source = some part →
    part.depth ≤ maxDepth → part.depth + 2 ≤ maxDepth
  size : ∀ {part}, Part.read? engine.sets source = some part →
    ((engine.compile? (anchored source) part.node.tied).isSome ↔
      (engine.compile? source part.node).isSome)

/-- Where there is room, a text that does not stray gives a parser exactly if it is a pattern by
itself. -/
theorem Engine.HasRoom.isSome_iff {source : String} (hroom : engine.HasRoom source.toList)
    (h : ¬Strays engine.sets .initial source.toList) :
    (ofSource? engine source).isSome ↔ (engine.read? source.toList).isSome := by
  rw [isSome_ofSource?_iff h]
  simp only [Option.isSome_iff_exists, Prod.exists, engine_read?_eq_some_iff]
  constructor
  · rintro ⟨part, hpart, -, hdepth, hfind⟩
    have hsize := (hroom.size hpart).1 (Option.isSome_iff_exists.2 hfind)
    obtain ⟨find, hfind⟩ := Option.isSome_iff_exists.1 hsize
    exact ⟨part.node, find, part, hpart, by omega, hfind, rfl⟩
  · rintro ⟨_, find, part, hpart, hdepth, hfind, -⟩
    have hsize := (hroom.size hpart).2 (Option.isSome_iff_exists.2 ⟨find, hfind⟩)
    exact ⟨part, hpart, hroom.uncommented, hroom.depth hpart hdepth, Option.isSome_iff_exists.1 hsize⟩

/-- A text that ends no group which it has not begun, as no text does that is a pattern by itself,
gives a parser exactly if it is read as a pattern by itself, no comment takes a parenthesis after it, and
the limits leave room for two more levels and one condition. So where there is room, it gives a parser
exactly if it is a pattern by itself. A run of the parser succeeds where the pattern by itself matches
first characters of the input, takes such characters, and splits the input into match and rest. -/
theorem anchored_of_not_strays {source : String} (hengine : engine.FindsMatches)
    (h : ¬Strays engine.sets .initial source.toList) :
    ((ofSource? engine source).isSome ↔ ∃ part, Part.read? engine.sets source.toList = some part ∧
        Part.read? engine.sets (source.toList ++ [')']) = none ∧ part.depth + 2 ≤ maxDepth ∧
        (engine.compile? (anchored source.toList) part.node.tied).isSome) ∧
    (engine.HasRoom source.toList →
      ((ofSource? engine source).isSome ↔ (engine.read? source.toList).isSome)) ∧
    ∀ pattern, ofSource? engine source = some pattern →
      ∃ part, Part.read? engine.sets source.toList = some part ∧
        ∀ (s : Store) (depth : Nat) (t : Text), ∃ o,
          s.step depth (.pattern pattern) t = some ⟨o, []⟩ ∧ o.Conserves t ∧
            (o.ok = true ↔ ∃ n, part.node.MatchesFirst t.chars n) ∧
            ∀ m x, o = .success m x → part.node.MatchesFirst t.chars m.length := by
  refine ⟨isSome_ofSource?_iff h, fun hroom => hroom.isSome_iff h, fun pattern hpattern => ?_⟩
  obtain ⟨part, hpart, -, -, find, hfind, rfl⟩ := (ofSource?_eq_some_iff h).1 hpattern
  refine ⟨part, hpart, fun s depth t => ⟨Step.found find t, Store.step_of_direct rfl, ?_⟩⟩
  rcases found_tied hengine hfind t with ⟨hfound, hfails⟩ | ⟨n, hfound, hmatches, -⟩
  · rw [hfound]
    exact ⟨trivial, iff_of_false Bool.false_ne_true (not_exists.2 hfails), nofun⟩
  · rw [hfound]
    refine ⟨by simp [Outcome.Conserves], iff_of_true rfl ⟨n, hmatches⟩, ?_⟩
    rintro m x ⟨⟩
    rwa [List.length_take, Nat.min_eq_left hmatches.le_length]

/-- Two alternatives stay tied together: the second is not found behind another letter. -/
theorem anchored_of_not_strays_bar :
    Engine.machine.FindsMatches ∧ ¬Strays Engine.machine.sets .initial "a|b".toList ∧
      Engine.machine.HasRoom "a|b".toList ∧
      ∃ pattern part, ofSource? .machine "a|b" = some pattern ∧
        Part.read? Engine.machine.sets "a|b".toList = some part ∧
        (∀ (s : Store) (depth : Nat),
          s.step depth (.pattern pattern) (.ofString "bc") =
            some ⟨.success ['b'] (.ofString "c"), []⟩ ∧
          s.step depth (.pattern pattern) (.ofString "cb") = some ⟨.failure (.ofString "cb"), []⟩) ∧
        part.node.MatchesFirst "bc".toList 1 ∧ ∀ n, ¬part.node.MatchesFirst "cb".toList n := by
  have hengine := Engine.machine_findsMatches
  have hstrays : ¬Strays Engine.machine.sets .initial "a|b".toList := not_strays rfl
  have hroom : Engine.machine.HasRoom "a|b".toList := by
    refine ⟨rfl, ?_, ?_⟩
    · rintro part hpart -
      cases hpart
      decide
    · rintro part hpart
      cases hpart
      exact iff_of_true rfl rfl
  obtain ⟨-, hiff, hruns⟩ := @anchored_of_not_strays .machine "a|b" hengine hstrays
  obtain ⟨pattern, hpattern⟩ := Option.isSome_iff_exists.1 ((hiff hroom).2 rfl)
  obtain ⟨part, hpart, hrun⟩ := hruns pattern hpattern
  have hstep (s : Store) (depth : Nat) :
      s.step depth (.pattern pattern) (.ofString "bc") =
        some ⟨.success ['b'] (.ofString "c"), []⟩ ∧
      s.step depth (.pattern pattern) (.ofString "cb") = some ⟨.failure (.ofString "cb"), []⟩ := by
    cases hpattern
    rw [Store.step_of_direct rfl, Store.step_of_direct rfl]
    exact ⟨rfl, rfl⟩
  refine ⟨hengine, hstrays, hroom, pattern, part, hpattern, hpart, hstep, ?_, ?_⟩
  · obtain ⟨o, hsame, -, -, hmatches⟩ := hrun ⟨#[]⟩ 0 (.ofString "bc")
    cases (hstep _ _).1.symm.trans hsame
    exact hmatches _ _ rfl
  · obtain ⟨o, hsame, -, hok, -⟩ := hrun ⟨#[]⟩ 0 (.ofString "cb")
    cases (hstep _ _).2.symm.trans hsame
    exact fun n hmatches => nomatch hok.2 ⟨n, hmatches⟩

/-- A comment takes the parenthesis that should end the group. -/
example : (Engine.machine.read? "(?x)a#c".toList).isSome ∧ ofSource? .machine "(?x)a#c" = none :=
  ⟨rfl, rfl⟩

/-- A text that is no pattern, since it ends a group that it has not begun, ends the group that it is
put in. What follows is not tied to the start, and a letter before it is lost. -/
theorem not_anchored_of_strays :
    Engine.machine.read? "a)|(?:b".toList = none ∧
      ∃ pattern, ofSource? .machine "a)|(?:b" = some pattern ∧ ∀ (s : Store) (depth : Nat),
        s.step depth (.pattern pattern) (.ofString "cb") =
          some ⟨.success ['b'] (.ofString ""), []⟩ ∧
        ¬(Outcome.success ['b'] (.ofString "")).Conserves (.ofString "cb") := by
  refine ⟨rfl, _, rfl, fun s depth => ⟨?_, ?_⟩⟩
  · rw [Store.step_of_direct rfl]
    rfl
  · unfold Outcome.Conserves
    decide

end Descent.Pattern
