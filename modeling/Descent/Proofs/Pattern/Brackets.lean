import Descent.Proofs.Pattern.Followed

/-!
# Reading a class with a parenthesis after it

In a bracketed class a parenthesis stands for itself. So after a text that ends inside of a class it
may be taken for a character, but it does not end the class: with the parenthesis the class is read as
it is without (`agree_readClass`).
-/

namespace Descent.Pattern

open Likeness

variable {sets : Sets} {f : Flags} {chars chars' rest rest' : List Char} {c : Char}

/-- Hyphens at the start of a class may reach up to the parenthesis. -/
theorem agree_leadingHyphens (h : Followed chars chars') (b : Bracket) (inComment : Bool) :
    Agree dangling.beside (b.leadingHyphens f inComment chars)
      (b.leadingHyphens f inComment chars') := by
  rcases h with rfl | ⟨rfl, rfl⟩
  · induction chars generalizing b inComment with
    | nil =>
      refine .lost (.ite (fun _ => .none) fun _ => .ite (fun _ => .none) fun _ => ?_)
      exact .ite (fun _ => .none) fun _ => .ite (fun _ => .none) fun _ => .some (.inr rfl)
    | cons c chars ih =>
      simp only [List.cons_append, Bracket.leadingHyphens]
      refine .ite (fun _ => ih _ _) fun _ => .ite (fun _ => ih _ _) fun _ => ?_
      refine .ite (fun _ => ih _ _) fun _ => .ite (fun _ => ih _ _) fun _ => ?_
      exact .some ⟨rfl, .inl rfl⟩
  · exact .none

/-- All that follows an opening bracket may reach up to the parenthesis. -/
theorem agree_opening (h : Followed chars chars') :
    Agree dangling.beside (Bracket.opening f chars) (Bracket.opening f chars') := by
  obtain ⟨hnegated, hrest⟩ := (h.skip f).marked (show '^' ≠ ')' by decide)
  simp only [Bracket.opening, ← hnegated]
  refine (agree_leadingHyphens hrest _ _).bind ?_ ?_
  · rintro ⟨b, rest⟩ ⟨_, rest'⟩ ⟨rfl, hrest⟩
    change Followed rest rest' at hrest
    dsimp only
    split
    next rest =>
      obtain rfl := hrest.eq_append (by simp)
      simp only [List.cons_append]
      refine .ite (fun _ => ?_) fun _ => .some ⟨rfl, .inl rfl⟩
      have hskip : Followed (f.skip rest) (f.skip (rest ++ [')'])) := Followed.skip (.inl rfl) f
      generalize f.skip rest = text at hskip
      generalize f.skip (rest ++ [')']) = text' at hskip
      split
      · rcases hskip with rfl | ⟨_, rfl⟩
        · exact .lost (.some (.inr rfl))
        · exact .none
      next hne =>
        obtain rfl := hskip.eq_append hne
        split
        · simp_all
        · exact .some ⟨rfl, .inl rfl⟩
    next hne =>
      split
      · obtain ⟨rest, rfl, _⟩ := hrest.of_cons (by decide)
        exact (hne rest rfl).elim
      · exact .some ⟨rfl, hrest⟩
  · rintro ⟨b, _⟩ (rfl | rfl)
    · exact .some (.inl rfl)
    · exact .some (.inr rfl)

/-- A named ASCII class is one whatever comes after it, and what is none does not become one. -/
theorem readAsciiClass_append (chars : List Char) : readAsciiClass (chars ++ [')']) =
    (readAsciiClass chars).map fun (negated, set, rest) => (negated, set, rest ++ [')']) := by
  cases chars with
  | nil => rfl
  | cons c chars =>
    by_cases hc : c = ':'
    · subst hc
      simp only [List.cons_append, readAsciiClass, marked_append (show '^' ≠ ')' by decide)]
      generalize (marked '^' chars).2 = rest
      have hall := List.takeWhile_append_dropWhile (p := (· != ':')) (l := rest)
      rw [List.dropWhile_append, List.takeWhile_append]
      rcases hdrop : rest.dropWhile (· != ':') with _ | ⟨d, tail⟩
      · rfl
      · rw [hdrop] at hall
        have hlength : (rest.takeWhile (· != ':')).length ≠ rest.length := by
          have hsum := congrArg List.length hall
          rw [List.length_append, List.length_cons] at hsum
          omega
        rw [if_neg hlength]
        simp only [List.isEmpty_cons, Bool.false_eq_true, if_false, List.cons_append]
        cases tail with
        | nil =>
          by_cases hd : d = ':'
          · subst hd
            rfl
          · simp [hd]
        | cons e tail =>
          simp only [List.cons_append]
          split
          next heq =>
            obtain ⟨rfl, rfl, rfl⟩ : d = ':' ∧ e = ']' ∧ tail ++ [')'] = _ := by simpa using heq
            simp [Function.comp_def]
          next hne =>
            split
            next heq =>
              cases heq
              exact (hne _ rfl).elim
            · rfl
    · simp [readAsciiClass, hc]

/-- The parenthesis may be taken for a character of a class. -/
theorem agree_readClassAtom (h : Followed chars chars') :
    Agree (escape f) (readClassAtom sets f chars) (readClassAtom sets f chars') := by
  unfold readClassAtom
  split
  · rcases h with rfl | ⟨_, rfl⟩
    · exact .lost (.some (.inl rfl))
    · exact .none
  · obtain rfl := h.eq_append (by simp)
    exact agree_readEscape (.inl rfl)
  next c rest hne =>
    obtain rfl := h.eq_append (by simp)
    simp only [List.cons_append]
    exact .some ⟨rfl, .inl rfl⟩

/-- The first character, if it is not the parenthesis. -/
theorem Followed.head?_eq_iff (h : Followed chars chars') (hc : c ≠ ')') :
    chars'.head? = some c ↔ chars.head? = some c := by
  rcases h with rfl | ⟨rfl, rfl⟩
  · cases chars with
    | nil => simp [Ne.symm hc]
    | cons d chars => simp
  · rfl

/-- The next character, if it is not the parenthesis. -/
theorem Followed.peek_eq_iff (h : Followed chars chars') (hc : c ≠ ')') :
    f.peek chars' = some c ↔ f.peek chars = some c := by
  unfold Flags.peek
  split
  · have hdrop := h.dropBlanks
    generalize chars.dropWhile isBlank = text at hdrop
    generalize chars'.dropWhile isBlank = text' at hdrop
    split
    · obtain ⟨rest, rfl, rfl⟩ := hdrop.of_cons (by decide)
      exact Followed.head?_eq_iff (Followed.dropBlanks (.inl rfl)) hc
    next hne =>
      split
      · obtain rfl := hdrop.eq_append (by simp)
        exact (hne _ rfl).elim
      · exact hdrop.head?_eq_iff hc
  · exact h.head?_eq_iff hc

/-- The parenthesis may be taken for an item of a class or for the end of a range, or left after the
last character. -/
theorem agree_readClassItem (h : Followed chars chars') :
    Agree dangling.beside (readClassItem sets f chars) (readClassItem sets f chars') := by
  unfold readClassItem
  refine (agree_readClassAtom h).bind ?_ ?_
  · rintro ⟨first, rest⟩ ⟨_, rest'⟩ ⟨rfl, hrest⟩
    have hskip := hrest.skip f
    dsimp only at hskip ⊢
    generalize f.skip rest = text at hskip
    generalize f.skip rest' = text' at hskip
    split
    · rcases hskip with rfl | ⟨_, rfl⟩
      · exact .lost (.map_value fun s => .inr rfl)
      · exact .none
    next after =>
      obtain rfl := hskip.eq_append (by simp)
      have hafter : Followed after (after ++ [')']) := .inl rfl
      simp only [List.cons_append, hafter.peek_eq_iff (c := ']') (by decide),
        hafter.peek_eq_iff (c := '-') (by decide)]
      refine .ite (fun _ => .map_same fun s => ⟨rfl, .inl rfl⟩) fun _ => ?_
      refine (agree_readClassAtom (hafter.skip f)).bind ?_ ?_
      · rintro ⟨last, rest⟩ ⟨_, rest'⟩ ⟨rfl, hrest⟩
        exact .map_same fun s => ⟨rfl, hrest⟩
      · rintro ⟨last, _⟩ (rfl | ⟨⟨l, rfl⟩, -⟩)
        · exact .map_value fun s => .inl rfl
        · cases first <;> exact .none
    next hnil hhyphen =>
      obtain rfl := hskip.eq_append hnil
      split
      · simp_all
      next heq =>
        obtain ⟨rest, rfl, _⟩ := cons_of_append heq (by decide)
        exact (hhyphen rest rfl).elim
      · exact .map_same fun s => ⟨rfl, .inl rfl⟩
  · rintro ⟨first, _⟩ (rfl | ⟨⟨l, rfl⟩, rest, rfl, -⟩)
    · dsimp only
      rw [f.skip_nil]
      exact .none
    · dsimp only
      rw [f.skip_cons (by decide) (by decide)]
      exact .none

/-- What starts an item starts one if the parenthesis comes after. -/
theorem StartsItem.append {text : List Char} (h : StartsItem text) : StartsItem (text ++ [')']) where
  nonempty := by simp
  not_opening rest heq := by
    obtain ⟨rest, rfl, _⟩ := cons_of_append heq (by decide)
    exact h.not_opening rest rfl
  not_closing rest heq := by
    obtain ⟨rest, rfl, _⟩ := cons_of_append heq (by decide)
    exact h.not_closing rest rfl
  not_operator op rest heq := by
    obtain ⟨rest, rfl⟩ := cons_cons_of_append heq (by cases op <;> decide)
    exact h.not_operator op rest rfl

/-- The parenthesis starts an item. -/
theorem StartsItem.close : StartsItem [')'] := by
  constructor <;> simp

/-- Where at most the parenthesis is left, a class does not end. -/
theorem readBrackets_of_dangling (fuel : Nat) (outer : List Bracket) (b : Bracket)
    (h : f.skip chars = [] ∨ f.skip chars = [')']) :
    readBrackets sets f fuel outer b chars = none := by
  cases fuel with
  | zero => rfl
  | succ fuel =>
    rcases h with hskip | hskip
    · exact readBrackets_of_nil hskip
    · have hitem : readClassItem sets f [')'] = none := by simp [readClassItem, readClassAtom]
      rw [readBrackets_of_item hskip .close, hitem]
      rfl

/-- What is lost in a class is lost with the class. -/
theorem only_readBrackets (fuel : Nat) (outer : List Bracket) (b : Bracket)
    (h : rest = [] ∨ rest = [')']) :
    Only taken.beside.beside.lost (readBrackets sets f fuel outer b rest) := by
  have hskip : f.skip rest = [] ∨ f.skip rest = [')'] :=
    h.imp (fun h => by rw [h, f.skip_nil]) fun h => by rw [h, f.skip_cons isBlank_close (by decide)]
  rw [readBrackets_of_dangling fuel outer b hskip]
  exact .none

/-- The rest of a class does not end with the parenthesis. -/
theorem agree_readBrackets (fuel : Nat) (h : Followed chars chars') (outer : List Bracket)
    (b : Bracket) :
    Agree taken.beside.beside (readBrackets sets f fuel outer b chars)
      (readBrackets sets f fuel outer b chars') := by
  induction fuel generalizing chars chars' outer b with
  | zero => exact .none
  | succ fuel ih =>
    have hskip := h.skip f
    generalize htext : f.skip chars = text at hskip
    cases classStart text with
    | nil =>
      have hdangling : f.skip chars' = [] ∨ f.skip chars' = [')'] :=
        hskip.elim .inr fun h => .inl h.2
      rw [readBrackets_of_nil htext, readBrackets_of_dangling _ outer b hdangling]
      exact .none
    | opening rest =>
      have htext' : f.skip chars' = '[' :: (rest ++ [')']) := hskip.eq_append (by simp)
      rw [readBrackets_of_opening htext, readBrackets_of_opening htext', readAsciiClass_append]
      cases readAsciiClass rest with
      | some p => exact .bind_same fun set => ih (.inl rfl) _ _
      | none =>
        refine (agree_opening (f := f) (.inl rfl)).bind ?_ fun p hp => only_readBrackets _ _ _ hp
        rintro ⟨inner, rest⟩ ⟨_, rest'⟩ ⟨rfl, hrest⟩
        exact ih hrest _ _
    | closing rest =>
      have htext' : f.skip chars' = ']' :: (rest ++ [')']) := hskip.eq_append (by simp)
      rw [readBrackets_of_closing htext, readBrackets_of_closing htext']
      refine .bind_same fun set => ?_
      cases outer with
      | nil => exact .some ⟨rfl, rfl, .inl rfl⟩
      | cons parent outer => exact ih (.inl rfl) _ _
    | operator op rest =>
      have htext' : f.skip chars' = op.mark :: op.mark :: (rest ++ [')']) :=
        hskip.eq_append (by simp)
      rw [readBrackets_of_operator htext, readBrackets_of_operator htext']
      exact ih (.inl rfl) _ _
    | item hitem =>
      have htext' := hskip.eq_append hitem.nonempty
      rw [readBrackets_of_item htext hitem, readBrackets_of_item htext' hitem.append]
      refine (agree_readClassItem (f := f) (.inl rfl)).bind ?_ fun p hp =>
        only_readBrackets _ _ _ hp
      rintro ⟨set, rest⟩ ⟨_, rest'⟩ ⟨rfl, hrest⟩
      exact ih hrest _ _

/-- A class is read alike, or not at all. -/
theorem agree_readClass (h : Followed chars chars') :
    Agree taken.beside.beside (readClass sets f chars) (readClass sets f chars') := by
  unfold readClass
  refine (agree_opening h).bind ?_ ?_
  · rintro ⟨b, rest⟩ ⟨_, rest'⟩ ⟨rfl, hrest⟩
    have hle : rest.length ≤ rest'.length := by
      rcases hrest with rfl | ⟨rfl, rfl⟩
      · simp
      · exact Nat.le_refl _
    dsimp only
    rw [readBrackets_fuel [] b (Nat.lt_succ_self rest.length) (Nat.lt_succ_of_le hle)]
    exact agree_readBrackets _ hrest _ _
  · rintro ⟨b, rest'⟩ hrest
    exact only_readBrackets _ _ _ hrest

end Descent.Pattern
