import Descent.Proofs.Pattern.Progress

/-!
# Reading a pattern with a parenthesis after it

A closing parenthesis after a text changes nothing of what is read before it. Where something is read
without the parenthesis, the same is read with it, and the parenthesis is left, unless a comment takes
it. Where nothing is read without the parenthesis, something can be read with it only if the
parenthesis itself is taken, as the end of flags or after a backslash, or if nothing can be read from
there on. For each reader one lemma says this (`Agree`); what can be lost differs (`Likeness`).
-/

namespace Descent.Pattern

/-- What is left of a text, and what is left of it with a parenthesis after it: the same with the
parenthesis at the end, or nothing, if a comment that has not ended takes the parenthesis. -/
def Followed (rest rest' : List Char) : Prop := rest' = rest ++ [')'] ∨ rest = [] ∧ rest' = []

/-- How what is read without and with the parenthesis belongs together. -/
structure Likeness (β : Type) where
  /-- The same is read. -/
  alike : β → β → Prop
  /-- This is read with the parenthesis, and nothing without it. -/
  lost : β → Prop

namespace Likeness

/-- With a value beside it that has to be the same. -/
def beside {α β : Type} (like : Likeness β) : Likeness (α × β) :=
  ⟨fun p q => p.1 = q.1 ∧ like.alike p.2 q.2, fun q => like.lost q.2⟩

/-- A text can only be lost at its end. -/
def taken : Likeness (List Char) := ⟨Followed, fun rest => rest = []⟩

/-- A text can only be lost at its end, or before the parenthesis. -/
def dangling : Likeness (List Char) := ⟨Followed, fun rest => rest = [] ∨ rest = [')']⟩

end Likeness

open Likeness

/-- Reading agrees without and with the parenthesis. -/
def Agree {β : Type} (like : Likeness β) : Option β → Option β → Prop
  | some b, some b' => like.alike b b'
  | some _, none => False
  | none, some b' => like.lost b'
  | none, none => True

variable {α β γ : Type} {like like' : Likeness β} {likeNext : Likeness γ} {r r' : Option β} {b b' : β}
  {k k' : β → Option γ} {sets : Sets} {f : Flags} {chars chars' rest rest' : List Char} {c : Char}

namespace Agree

theorem none : Agree like none none := trivial

theorem some (h : like.alike b b') : Agree like (some b) (some b') := h

/-- Something is read with the parenthesis only. -/
theorem lost (h : Only like.lost r') : Agree like .none r' := by
  cases r' with
  | none => trivial
  | some b' => exact h b' rfl

/-- What is read without the parenthesis is read with it. -/
theorem exists_of_some (h : Agree like (.some b) r') : ∃ b', like.alike b b' ∧ r' = .some b' := by
  cases r' with
  | none => exact h.elim
  | some b' => exact ⟨b', h, rfl⟩

/-- More may be lost. -/
theorem weaken (h : Agree like r r') (halike : ∀ b b', like.alike b b' → like'.alike b b')
    (hlost : ∀ b', like.lost b' → like'.lost b') : Agree like' r r' := by
  cases r with
  | none => exact lost fun b' hb' => by subst hb'; exact hlost b' h
  | some b =>
    obtain ⟨b', hb, rfl⟩ := h.exists_of_some
    exact halike b b' hb

/-- One reader after another. -/
theorem bind (h : Agree like r r') (hk : ∀ b b', like.alike b b' → Agree likeNext (k b) (k' b'))
    (hlost : ∀ b', like.lost b' → Only likeNext.lost (k' b')) :
    Agree likeNext (r >>= k) (r' >>= k') := by
  cases r with
  | none =>
    cases r' with
    | none => exact none
    | some b' => exact lost (hlost b' h)
  | some b =>
    obtain ⟨b', hb, rfl⟩ := h.exists_of_some
    exact hk b b' hb

/-- A result made of what is read. -/
theorem map {g g' : β → γ} (h : Agree like r r')
    (hg : ∀ b b', like.alike b b' → likeNext.alike (g b) (g' b'))
    (hlost : ∀ b', like.lost b' → likeNext.lost (g' b')) :
    Agree likeNext (r.map g) (r'.map g') := by
  cases r with
  | none =>
    cases r' with
    | none => exact none
    | some b' => exact lost (.some (hlost b' h))
  | some b =>
    obtain ⟨b', hb, rfl⟩ := h.exists_of_some
    exact hg b b' hb

/-- A value that does not come from the text. -/
theorem bind_same {o : Option α} {k k' : α → Option γ} (hk : ∀ a, Agree likeNext (k a) (k' a)) :
    Agree likeNext (o >>= k) (o >>= k') := by
  cases o with
  | none => exact none
  | some a => exact hk a

theorem map_same {o : Option α} {g g' : α → γ} (hg : ∀ a, likeNext.alike (g a) (g' a)) :
    Agree likeNext (o.map g) (o.map g') := by
  cases o with
  | none => exact none
  | some a => exact hg a

/-- The same check. -/
theorem ite {p : Prop} [Decidable p] {o o' : Option β} (h : p → Agree like r r')
    (h' : ¬p → Agree like o o') : Agree like (if p then r else o) (if p then r' else o') := by
  by_cases hp : p
  · rw [if_pos hp, if_pos hp]
    exact h hp
  · rw [if_neg hp, if_neg hp]
    exact h' hp

end Agree

/-! ## Blanks -/

/-- At the end nothing is left out. -/
@[simp] theorem Flags.skip_nil (f : Flags) : f.skip [] = [] := by
  unfold Flags.skip
  split <;> rfl

/-- What is neither a blank nor the mark of a comment is not left out. -/
theorem Flags.skip_cons (f : Flags) (hblank : isBlank c = false) (hmark : c ≠ '#')
    (rest : List Char) : f.skip (c :: rest) = c :: rest := by
  unfold Flags.skip
  split
  · simp [skipBlanks, hblank, hmark]
  · rfl

/-- A parenthesis is no blank. -/
theorem isBlank_close : isBlank ')' = false := by decide

/-- After blanks and comments the parenthesis is left, but a comment may take it. -/
theorem Followed.skipBlanks (h : Followed chars chars') (inComment : Bool) :
    Followed (skipBlanks inComment chars) (skipBlanks inComment chars') := by
  rcases h with rfl | ⟨rfl, rfl⟩
  · induction chars generalizing inComment with
    | nil => cases inComment <;> simp [Pattern.skipBlanks, Followed, isBlank_close]
    | cons c chars ih =>
      simp only [List.cons_append, Pattern.skipBlanks]
      split
      · exact ih _
      · split
        · exact ih _
        · split
          · exact ih _
          · exact .inl rfl
  · exact .inr ⟨rfl, rfl⟩

/-- After what is skipped, which may be nothing where blanks count, the parenthesis is left, but a
comment may take it. -/
theorem Followed.skip (h : Followed chars chars') (f : Flags) :
    Followed (f.skip chars) (f.skip chars') := by
  unfold Flags.skip
  split
  · exact h.skipBlanks false
  · exact h

/-- After blanks the parenthesis is left. -/
theorem Followed.dropBlanks (h : Followed chars chars') :
    Followed (chars.dropWhile isBlank) (chars'.dropWhile isBlank) := by
  rcases h with rfl | ⟨rfl, rfl⟩
  · left
    induction chars with
    | nil => simp [isBlank_close]
    | cons c chars ih =>
      by_cases hc : isBlank c = true
      · simpa [hc] using ih
      · simp [hc]
  · exact .inr ⟨rfl, rfl⟩

/-- Characters are taken up to the parenthesis, if that is not accepted. -/
theorem Followed.span (h : Followed chars chars') {accept : Char → Bool}
    (haccept : accept ')' = false) (inComment : Bool) :
    taken.beside.alike (f.span accept inComment chars) (f.span accept inComment chars') := by
  rcases h with rfl | ⟨rfl, rfl⟩
  · induction chars generalizing inComment with
    | nil =>
      cases inComment <;> simp [Flags.span, isBlank_close, haccept, beside, taken, Followed]
    | cons c chars ih =>
      simp only [List.cons_append, Flags.span]
      split
      · exact ih _
      · split
        · exact ih _
        · split
          · exact ih _
          · split
            · exact ⟨congrArg (c :: ·) (ih false).1, (ih false).2⟩
            · exact ⟨rfl, .inl rfl⟩
  · exact ⟨rfl, .inr ⟨rfl, rfl⟩⟩

/-- What is read up to a character that stands there is read as before, whatever comes after. -/
theorem span_append {accept : Char → Bool} {inComment : Bool} {taken : List Char}
    (h : f.span accept inComment chars = (taken, c :: rest)) (more : List Char) :
    f.span accept inComment (chars ++ more) = (taken, c :: rest ++ more) := by
  revert h
  induction chars generalizing inComment taken with
  | nil => exact fun h => by cases h
  | cons d chars ih =>
    simp only [List.cons_append, Flags.span]
    split
    · exact ih
    · split
      · exact ih
      · split
        · exact ih
        · split
          · intro h
            obtain ⟨rfl, hrest⟩ := Prod.mk.inj h
            rw [ih (Prod.ext rfl hrest)]
            rfl
          · intro h
            cases h
            rfl

/-- A text that has not been read to its end has the parenthesis at its end. -/
theorem Followed.eq_append (h : Followed chars chars') (hne : chars ≠ []) :
    chars' = chars ++ [')'] :=
  h.resolve_right fun ⟨hnil, _⟩ => hne hnil

/-- What stands at the front has stood there before, if it is not the parenthesis. -/
theorem cons_of_append (h : chars ++ [')'] = c :: rest') (hc : c ≠ ')') :
    ∃ rest, chars = c :: rest ∧ rest ++ [')'] = rest' := by
  cases chars with
  | nil => exact absurd (List.cons.inj h).1.symm hc
  | cons d chars =>
    obtain ⟨rfl, rfl⟩ := List.cons.inj h
    exact ⟨chars, rfl, rfl⟩

/-- Two characters of a kind at the front have stood there before, if they are not
the parenthesis. -/
theorem cons_cons_of_append (h : chars ++ [')'] = c :: c :: rest') (hc : c ≠ ')') :
    ∃ rest, chars = c :: c :: rest := by
  obtain ⟨_, rfl, htail⟩ := cons_of_append h hc
  obtain ⟨rest, rfl, _⟩ := cons_of_append htail hc
  exact ⟨rest, rfl⟩

/-- Even if a comment may have taken the parenthesis. -/
theorem Followed.of_cons (h : Followed chars (c :: rest')) (hc : c ≠ ')') :
    ∃ rest, chars = c :: rest ∧ rest' = rest ++ [')'] := by
  rcases h with heq | ⟨_, hnil⟩
  · obtain ⟨rest, rfl, rfl⟩ := cons_of_append heq.symm hc
    exact ⟨rest, rfl, rfl⟩
  · cases hnil

/-- A mark stands at the front or not, whatever comes after, if it is not the parenthesis. -/
theorem marked_append {mark : Char} (hmark : mark ≠ ')') (chars : List Char) :
    marked mark (chars ++ [')']) = ((marked mark chars).1, (marked mark chars).2 ++ [')']) := by
  cases chars with
  | nil => simp [marked, Ne.symm hmark]
  | cons c chars =>
    simp only [List.cons_append, marked]
    split <;> rfl

/-- Even if a comment may have taken the parenthesis. -/
theorem Followed.marked (h : Followed chars chars') {mark : Char} (hmark : mark ≠ ')') :
    taken.beside.alike (marked mark chars) (marked mark chars') := by
  rcases h with rfl | ⟨rfl, rfl⟩
  · rw [marked_append hmark]
    exact ⟨rfl, .inl rfl⟩
  · exact ⟨rfl, .inr ⟨rfl, rfl⟩⟩

/-- What is read up to the end of the text is read up to the end of the text with the parenthesis, if
that is accepted. -/
theorem span_append_nil {accept : Char → Bool} {inComment : Bool} {taken : List Char}
    (h : f.span accept inComment chars = (taken, [])) (haccept : accept ')' = true) :
    (f.span accept inComment (chars ++ [')'])).2 = [] := by
  revert h
  induction chars generalizing inComment taken with
  | nil =>
    intro _
    cases inComment <;> simp [Flags.span, isBlank_close, haccept]
  | cons d chars ih =>
    simp only [List.cons_append, Flags.span]
    split
    · exact ih
    · split
      · exact ih
      · split
        · exact ih
        · split
          · intro h
            exact ih (Prod.ext rfl (Prod.mk.inj h).2)
          · intro h
            cases (Prod.mk.inj h).2

/-! ## Groups and flags -/

/-- No name of a group ends with the parenthesis. -/
theorem agree_readGroupName (h : Followed chars chars') (name : List Char) :
    Agree taken.beside (readGroupName name chars) (readGroupName name chars') := by
  rcases h with rfl | ⟨rfl, rfl⟩
  · induction chars generalizing name with
    | nil =>
      refine .lost (.ite (fun h => absurd h (by decide)) fun _ => ?_)
      exact .ite (fun _ => .none) fun _ => .none
    | cons c chars ih =>
      simp only [List.cons_append, readGroupName]
      refine .ite (fun _ => .ite (fun _ => .none) fun _ => .some ⟨rfl, .inl rfl⟩) fun _ => ?_
      exact .ite (fun _ => ih _) fun _ => .none
  · exact .none

/-- Flags may end with the parenthesis. -/
theorem agree_readFlags (h : Followed chars chars') (flags : Flags) (seen : List Char) :
    Agree taken.beside.beside.beside (readFlags flags seen chars) (readFlags flags seen chars') := by
  rcases h with rfl | ⟨rfl, rfl⟩
  · induction chars generalizing flags seen with
    | nil =>
      refine .lost (.ite (fun _ => .ite (fun _ => .none) fun _ => .some rfl) fun h => ?_)
      exact absurd (.inr rfl) h
    | cons c chars ih =>
      simp only [List.cons_append, readFlags]
      refine .ite (fun _ => ?_) fun _ => .ite (fun _ => .none) fun _ => ?_
      · exact .ite (fun _ => .none) fun _ => .some ⟨rfl, rfl, rfl, .inl rfl⟩
      refine .ite (fun _ => ih _ _) fun _ => ?_
      cases flags.switch (!seen.contains '-') c with
      | none => exact .none
      | some flags => exact ih _ _
  · exact .none

/-! ## Repetitions -/

/-- A count ends before the parenthesis. -/
theorem agree_readCount (h : Followed chars chars') :
    Agree taken.beside (readCount f chars) (readCount f chars') := by
  have hdigit : Char.isDigit ')' = false := by decide
  obtain ⟨hdigits, hrest⟩ := h.dropBlanks.span (f := f) hdigit false
  simp only [readCount, ← hdigits]
  exact .ite (fun _ => .none) fun _ => .some ⟨rfl, hrest.dropBlanks⟩

/-- The greatest count ends before the parenthesis. -/
theorem agree_readMost (h : Followed chars chars') (least : Nat) :
    Agree taken.beside (readMost f least chars) (readMost f least chars') := by
  unfold readMost
  split
  next rest =>
    obtain rfl := h.eq_append (by simp)
    have hskip : Followed (f.skip rest) (f.skip (rest ++ [')'])) := Followed.skip (.inl rfl) f
    generalize f.skip rest = text at hskip
    simp only [List.cons_append]
    generalize f.skip (rest ++ [')']) = text' at hskip
    split
    · obtain rfl := hskip.eq_append (by simp)
      exact .some ⟨rfl, .inl rfl⟩
    next hne =>
      split
      · obtain ⟨rest, rfl, _⟩ := hskip.of_cons (by decide)
        exact (hne rest rfl).elim
      · exact (agree_readCount hskip).map (fun _ _ h => ⟨congrArg some h.1, h.2⟩) fun _ h => h
  next hne =>
    split
    · obtain ⟨rest, rfl, _⟩ := h.of_cons (by decide)
      exact (hne rest rfl).elim
    · exact .some ⟨rfl, h⟩

/-- Counts in braces do not end without a brace. -/
theorem agree_readCounts (h : Followed chars chars') :
    Agree taken.beside.beside (readCounts f chars) (readCounts f chars') := by
  unfold readCounts
  refine (agree_readCount (h.skip f)).bind ?_ ?_
  · rintro ⟨least, rest⟩ ⟨_, rest'⟩ ⟨rfl, hrest⟩
    refine (agree_readMost hrest least).bind ?_ ?_
    · rintro ⟨most, rest⟩ ⟨_, rest'⟩ ⟨rfl, hrest⟩
      dsimp only at hrest ⊢
      split
      · obtain rfl := hrest.eq_append (by simp)
        exact .ite (fun _ => .some ⟨rfl, rfl, .inl rfl⟩) fun _ => .none
      next hne =>
        split
        · obtain ⟨rest, rfl, _⟩ := hrest.of_cons (by decide)
          exact (hne rest rfl).elim
        · exact .none
    · rintro ⟨most, _⟩ rfl
      exact .none
  · rintro ⟨least, _⟩ rfl
    exact .none

/-! ## Escapes -/

/-- The parenthesis is no hexadecimal digit. -/
theorem agree_readHexDigits (h : Followed chars chars') (count : Nat) :
    Agree taken.beside (readHexDigits f count chars) (readHexDigits f count chars') := by
  induction count generalizing chars chars' with
  | zero => exact .some ⟨rfl, h⟩
  | succ count ih =>
    rcases h with rfl | ⟨rfl, rfl⟩
    · cases chars with
      | nil => exact .lost (.ite (fun h => absurd h (by decide)) fun _ => .none)
      | cons c chars =>
        simp only [List.cons_append, readHexDigits]
        refine .ite (fun _ => ?_) fun _ => .none
        exact (ih (Followed.skip (.inl rfl) f)).map (fun _ _ h => ⟨congrArg (c :: ·) h.1, h.2⟩)
          fun _ h => h
    · exact .none

/-- A character written in hexadecimal ends with a brace or a digit. -/
theorem agree_readHexChar (h : Followed chars chars') (count : Nat) (byte : Bool) :
    Agree taken.beside (readHexChar f count byte chars) (readHexChar f count byte chars') := by
  have hskip := h.skip f
  unfold readHexChar
  generalize f.skip chars = text at hskip
  generalize f.skip chars' = text' at hskip
  dsimp only
  split
  next rest =>
    obtain rfl := hskip.eq_append (by simp)
    simp only [List.cons_append]
    rcases hspan : f.span (· != '\x7d') false rest with ⟨digits, _ | ⟨d, rest⟩⟩
    · rw [span_append_nil hspan (by decide)]
      simp [Agree]
    · rw [span_append hspan]
      exact .bind_same fun code => .bind_same fun c => .some ⟨rfl, Followed.skip (.inl rfl) f⟩
  next hne =>
    split
    · obtain ⟨rest, rfl, _⟩ := hskip.of_cons (by decide)
      exact (hne rest rfl).elim
    · refine (agree_readHexDigits hskip count).bind ?_ ?_
      · rintro ⟨digits, rest⟩ ⟨_, rest'⟩ ⟨rfl, hrest⟩
        exact .bind_same fun code => .bind_same fun c => .some ⟨rfl, hrest⟩
      · rintro ⟨digits, _⟩ rfl
        exact .bind_value fun code => .bind_value fun c => .some rfl

/-- The parenthesis may be taken for the letter of a property. -/
theorem agree_readQuery (h : Followed chars chars') :
    Agree taken.beside (readQuery f chars) (readQuery f chars') := by
  have hskip := h.skip f
  unfold readQuery
  generalize f.skip chars = text at hskip
  generalize f.skip chars' = text' at hskip
  split
  · rcases hskip with rfl | ⟨_, rfl⟩
    · exact .lost (.ite (fun h => absurd h (by decide)) fun _ => .some f.skip_nil)
    · exact .none
  next rest =>
    obtain rfl := hskip.eq_append (by simp)
    simp only [List.cons_append]
    rcases hspan : f.span (· != '\x7d') false rest with ⟨name, _ | ⟨d, rest⟩⟩
    · have hspan' := span_append_nil hspan (by decide)
      generalize f.span (· != '\x7d') false (rest ++ [')']) = read at hspan'
      obtain ⟨name', _⟩ := read
      cases hspan'
      exact .none
    · rw [span_append hspan]
      exact .some ⟨rfl, .inl rfl⟩
  next c rest hne =>
    obtain rfl := hskip.eq_append (by simp)
    simp only [List.cons_append]
    exact .ite (fun _ => .none) fun _ => .some ⟨rfl, Followed.skip (.inl rfl) f⟩

/-- The parenthesis may be taken for the letter of a property in a class of characters that
have it. -/
theorem agree_readProperty (h : Followed chars chars') (negated : Bool) :
    Agree taken.beside (readProperty sets f negated chars) (readProperty sets f negated chars') := by
  unfold readProperty
  refine (agree_readQuery h).bind ?_ ?_
  · rintro ⟨⟨query, flipped⟩, rest⟩ ⟨_, rest'⟩ ⟨rfl, hrest⟩
    refine .ite (fun _ => ?_) fun _ => .none
    exact .bind_same fun set => .bind_same fun set => .some ⟨rfl, hrest⟩
  · rintro ⟨⟨query, flipped⟩, _⟩ rfl
    exact .ite (fun _ => .bind_value fun set => .bind_value fun set => .some rfl) fun _ => .none

/-- A brace with nothing but the parenthesis after it, which starts no piece of a pattern. -/
def Stuck (f : Flags) (chars : List Char) : Prop :=
  ∃ rest, chars = '\x7b' :: rest ∧ f.skip rest = [')']

/-- An escape can only be lost at the end of the text, or as a condition after which nothing can be
read. -/
def Likeness.escape (f : Flags) : Likeness (Atom × List Char) :=
  ⟨fun p q => p.1 = q.1 ∧ Followed p.2 q.2,
    fun q => q.2 = [] ∨ (∃ l, q.1 = .look l) ∧ Stuck f q.2⟩

/-- A condition on words can only be lost before a brace that belongs to nothing. -/
theorem agree_readWordCondition (h : Followed chars chars') (ascii : Bool) :
    Agree (escape f) (readWordCondition f ascii chars) (readWordCondition f ascii chars') := by
  unfold readWordCondition
  dsimp only
  split
  next rest =>
    obtain rfl := h.eq_append (by simp)
    have hskip : Followed (f.skip rest) (f.skip (rest ++ [')'])) := Followed.skip (.inl rfl) f
    simp only [List.cons_append]
    generalize f.skip rest = text at hskip
    cases htext : f.skip (rest ++ [')']) with
    | nil =>
      rcases hskip with heq | ⟨rfl, _⟩
      · simp [htext] at heq
      · exact .none
    | cons c' inner' =>
      rw [htext] at hskip
      cases text with
      | nil =>
        obtain ⟨rfl, rfl⟩ : c' = ')' ∧ inner' = [] := by simpa [Followed] using hskip
        refine .lost (.ite (fun h => absurd h (by decide)) fun _ => .some (.inr ⟨⟨_, rfl⟩, ?_⟩))
        exact ⟨rest ++ [')'], rfl, htext⟩
      | cons c inner =>
        obtain ⟨rfl, _⟩ : c' = c ∧ inner' = inner ++ [')'] := by simpa [Followed] using hskip
        refine .ite (fun _ => ?_) fun _ => .some ⟨rfl, .inl rfl⟩
        obtain ⟨hname, hrest⟩ :=
          @Followed.span f _ _ hskip (fun c => c.isAlpha || c == '-') (by decide) false
        generalize f.span (fun c => c.isAlpha || c == '-') false (c' :: inner) = p at hname hrest
        generalize f.span (fun c => c.isAlpha || c == '-') false (c' :: inner') = q at hname hrest
        obtain ⟨name, rest⟩ := p
        obtain ⟨_, rest'⟩ := q
        obtain rfl : name = _ := hname
        change Followed rest rest' at hrest
        split
        next heq =>
          obtain ⟨rfl, rfl⟩ := Prod.mk.inj heq
          obtain rfl := hrest.eq_append (by simp)
          exact .map_same fun l => ⟨rfl, .inl rfl⟩
        next hne =>
          split
          next heq =>
            obtain ⟨rfl, rfl⟩ := Prod.mk.inj heq
            obtain ⟨rest, rfl, _⟩ := hrest.of_cons (by decide)
            exact (hne _ _ rfl).elim
          · exact .none
  next hne =>
    split
    · obtain ⟨rest, rfl, _⟩ := h.of_cons (by decide)
      exact (hne rest rfl).elim
    · exact .some ⟨rfl, h⟩

/-- A backslash may take the parenthesis. -/
theorem agree_readEscape (h : Followed chars chars') :
    Agree (escape f) (readEscape sets f chars) (readEscape sets f chars') := by
  rcases h with rfl | ⟨rfl, rfl⟩
  · have hrest (rest : List Char) : Followed rest (rest ++ [')']) := .inl rfl
    unfold readEscape
    split
    · exact .lost (.some (.inl rfl))
    case h_2 | h_3 | h_4 =>
      exact (agree_readHexChar (hrest _) _ _).weaken (fun _ _ h => h) fun _ => .inl
    case h_5 | h_6 => exact (agree_readProperty (hrest _) _).weaken (fun _ _ h => h) fun _ => .inl
    case h_15 => exact agree_readWordCondition (hrest _) _
    case h_19 =>
      simp only [List.cons_append]
      exact .ite (fun _ => .some ⟨rfl, hrest _⟩) fun _ => .map_same fun s => ⟨rfl, hrest _⟩
    all_goals exact .some ⟨rfl, hrest _⟩
  · exact .none

end Descent.Pattern
