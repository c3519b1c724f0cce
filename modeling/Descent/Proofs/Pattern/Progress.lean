import Descent.Pattern.Reader

/-!
# Reading a pattern goes forward

Whatever a reader takes, it takes from the front of a text, and every piece of a pattern takes at
least one character. So the length of a text bounds the number of its pieces, and of the steps through
a bracketed class: with more fuel than there are characters, more fuel makes no difference
(`readPieces_fuel`, `readBrackets_fuel`).
-/

namespace Descent.Pattern

/-- Whatever is read, it is good. -/
def Only {β : Type} (good : β → Prop) (r : Option β) : Prop := ∀ b, r = some b → good b

variable {α β γ : Type} {good : β → Prop} {good' : γ → Prop} {r r' : Option β} {n : Nat}
  {sets : Sets} {f : Flags} {s : ReadState} {c : Char} {chars : List Char}

namespace Only

theorem none : Only good none := nofun

theorem some {b : β} (h : good b) : Only good (some b) := by
  rintro _ ⟨⟩
  exact h

/-- One reader after another. -/
theorem bind {k : β → Option γ} (h : Only good r) (hk : ∀ b, good b → Only good' (k b)) :
    Only good' (r >>= k) := by
  intro d hd
  obtain ⟨b, hb, hd⟩ := Option.bind_eq_some_iff.1 hd
  exact hk b (h b hb) d hd

/-- A value of which nothing is known. -/
theorem bind_value {o : Option α} {k : α → Option γ} (hk : ∀ a, Only good' (k a)) :
    Only good' (o >>= k) := by
  intro d hd
  obtain ⟨a, _, hd⟩ := Option.bind_eq_some_iff.1 hd
  exact hk a d hd

theorem map {g : β → γ} (h : Only good r) (hg : ∀ b, good b → good' (g b)) :
    Only good' (r.map g) := by
  intro d hd
  obtain ⟨b, hb, rfl⟩ := Option.map_eq_some_iff.1 hd
  exact hg b (h b hb)

theorem map_value {o : Option α} {g : α → γ} (hg : ∀ a, good' (g a)) : Only good' (o.map g) := by
  intro d hd
  obtain ⟨a, _, rfl⟩ := Option.map_eq_some_iff.1 hd
  exact hg a

theorem ite {p : Prop} [Decidable p] (h : p → Only good r) (h' : ¬p → Only good r') :
    Only good (if p then r else r') := by
  by_cases hp : p
  · rw [if_pos hp]
    exact h hp
  · rw [if_neg hp]
    exact h' hp

end Only

/-- At most `n` characters are left after reading; `left` says which. -/
abbrev Leaves (left : β → List Char) (n : Nat) (r : Option β) : Prop :=
  Only (fun b => (left b).length ≤ n) r

/-! ## Blanks -/

theorem length_skipBlanks_le (inComment : Bool) (h : chars.length ≤ n) :
    (skipBlanks inComment chars).length ≤ n := by
  induction chars generalizing inComment with
  | nil => exact h
  | cons c chars ih =>
    have hchars : chars.length ≤ n := Nat.le_of_succ_le h
    unfold skipBlanks
    split
    · exact ih _ hchars
    · split
      · exact ih _ hchars
      · split
        · exact ih _ hchars
        · exact h

theorem Flags.length_skip_le (f : Flags) (h : chars.length ≤ n) : (f.skip chars).length ≤ n := by
  unfold skip
  split
  · exact length_skipBlanks_le false h
  · exact h

theorem length_dropBlanks_le (h : chars.length ≤ n) : (chars.dropWhile isBlank).length ≤ n :=
  Nat.le_trans (List.dropWhile_suffix isBlank).length_le h

theorem Flags.length_span_le (f : Flags) (accept : Char → Bool) (inComment : Bool)
    (h : chars.length ≤ n) : (f.span accept inComment chars).2.length ≤ n := by
  induction chars generalizing inComment with
  | nil => exact h
  | cons c chars ih =>
    have hchars : chars.length ≤ n := Nat.le_of_succ_le h
    unfold span
    split
    · exact ih _ hchars
    · split
      · exact ih _ hchars
      · split
        · exact ih _ hchars
        · split
          · exact ih _ hchars
          · exact h

theorem length_marked_le (mark : Char) (h : chars.length ≤ n) :
    (marked mark chars).2.length ≤ n := by
  cases chars with
  | nil => exact h
  | cons c chars =>
    simp only [marked]
    split
    · exact Nat.le_of_succ_le h
    · exact h

/-! ## Escapes -/

theorem leaves_readHexDigits (count : Nat) (h : chars.length ≤ n) :
    Leaves (·.2) n (readHexDigits f count chars) := by
  induction count generalizing chars with
  | zero => exact .some h
  | succ count ih =>
    cases chars with
    | nil => exact .none
    | cons c rest =>
      refine .ite (fun _ => ?_) fun _ => .none
      have hrest : (f.skip rest).length ≤ n :=
        f.length_skip_le (Nat.le_of_succ_le h)
      exact .map (ih hrest) fun _ hb => hb

theorem leaves_readHexChar (count : Nat) (byte : Bool) (h : chars.length ≤ n) :
    Leaves (·.2) n (readHexChar f count byte chars) := by
  have hskip := f.length_skip_le h
  unfold readHexChar
  generalize f.skip chars = text at hskip
  split
  next rest =>
    have hspan := f.length_span_le (· != '\x7d') false (Nat.le_of_succ_le hskip)
    refine .bind_value fun code => .bind_value fun c => ?_
    split
    next heq =>
      rw [heq] at hspan
      exact .some (f.length_skip_le (Nat.le_of_succ_le hspan))
    · exact .none
  · refine .bind (leaves_readHexDigits count hskip) fun p hp => ?_
    exact .bind_value fun code => .bind_value fun c => .some hp

theorem leaves_readQuery (h : chars.length ≤ n) : Leaves (·.2) n (readQuery f chars) := by
  have hskip := f.length_skip_le h
  unfold readQuery
  generalize f.skip chars = text at hskip
  split
  · exact .none
  next rest =>
    have hspan := f.length_span_le (· != '\x7d') false (Nat.le_of_succ_le hskip)
    split
    next heq =>
      rw [heq] at hspan
      exact .some (Nat.le_of_succ_le hspan)
    · exact .none
  · refine .ite (fun _ => .none) fun _ => .some ?_
    exact f.length_skip_le (Nat.le_of_succ_le hskip)

theorem leaves_readProperty (negated : Bool) (h : chars.length ≤ n) :
    Leaves (·.2) n (readProperty sets f negated chars) := by
  unfold readProperty
  refine .bind (leaves_readQuery h) fun p hp => .ite (fun _ => ?_) fun _ => .none
  exact .bind_value fun set => .bind_value fun set => .some hp

theorem leaves_readWordCondition (ascii : Bool) (h : chars.length ≤ n) :
    Leaves (·.2) n (readWordCondition f ascii chars) := by
  unfold readWordCondition
  dsimp only
  split
  next rest =>
    have hskip := f.length_skip_le (Nat.le_of_succ_le h)
    generalize f.skip rest = text at hskip
    split
    · exact .none
    next c inner =>
      refine .ite (fun _ => ?_) fun _ => .some h
      have hspan := f.length_span_le (fun c => c.isAlpha || c == '-') false hskip
      split
      next heq =>
        rw [heq] at hspan
        exact .map_value fun l => Nat.le_of_succ_le hspan
      · exact .none
  · exact .some h

/-- An escape takes the character after the backslash. -/
theorem leaves_readEscape (h : chars.length ≤ n + 1) :
    Leaves (·.2) n (readEscape sets f chars) := by
  cases chars with
  | nil => exact .none
  | cons c rest =>
    have hrest : rest.length ≤ n := Nat.le_of_succ_le_succ h
    unfold readEscape
    split
    · exact .none
    case h_2 heq | h_3 heq | h_4 heq =>
      obtain ⟨rfl, rfl⟩ := List.cons.inj heq
      exact leaves_readHexChar _ _ hrest
    case h_5 heq | h_6 heq =>
      obtain ⟨rfl, rfl⟩ := List.cons.inj heq
      exact leaves_readProperty _ hrest
    case h_15 heq =>
      obtain ⟨rfl, rfl⟩ := List.cons.inj heq
      exact leaves_readWordCondition _ hrest
    case h_19 heq =>
      obtain ⟨rfl, rfl⟩ := List.cons.inj heq
      exact .ite (fun _ => .some hrest) fun _ => .map_value fun s => hrest
    all_goals
      rename_i heq
      obtain ⟨rfl, rfl⟩ := List.cons.inj heq
      exact .some hrest

/-! ## Brackets -/

theorem leaves_leadingHyphens (b : Bracket) (inComment : Bool) (h : chars.length ≤ n) :
    Leaves (·.2) n (b.leadingHyphens f inComment chars) := by
  induction chars generalizing b inComment with
  | nil => exact .none
  | cons c chars ih =>
    have hchars : chars.length ≤ n := Nat.le_of_succ_le h
    unfold Bracket.leadingHyphens
    refine .ite (fun _ => ih _ _ hchars) fun _ => .ite (fun _ => ih _ _ hchars) fun _ => ?_
    refine .ite (fun _ => ih _ _ hchars) fun _ => .ite (fun _ => ih _ _ hchars) fun _ => ?_
    exact .some h

theorem leaves_opening (h : chars.length ≤ n) : Leaves (·.2) n (Bracket.opening f chars) := by
  have hmarked := length_marked_le '^' (f.length_skip_le h)
  unfold Bracket.opening
  refine .bind (leaves_leadingHyphens _ _ hmarked) fun (b, rest) hrest => ?_
  dsimp only at hrest ⊢
  split
  next rest =>
    refine .ite (fun _ => ?_) fun _ => .some hrest
    have hskip := f.length_skip_le (Nat.le_of_succ_le hrest)
    generalize f.skip rest = text at hskip
    split
    · exact .none
    · exact .some hskip
  · exact .some hrest

theorem leaves_readAsciiClass (h : chars.length ≤ n) : Leaves (·.2.2) n (readAsciiClass chars) := by
  unfold readAsciiClass
  split
  next rest =>
    have hdrop := (List.dropWhile_suffix (· != ':') (l := (marked '^' rest).2)).length_le
    have hmarked := length_marked_le '^' (Nat.le_refl rest.length)
    simp only [List.length_cons] at h
    dsimp only
    split
    next heq =>
      rw [heq] at hdrop
      simp only [List.length_cons] at hdrop
      exact .map_value fun ranges => by dsimp only; omega
    · exact .none
  · exact .none

/-- One character of a class, at least, is taken. -/
theorem leaves_readClassAtom (h : chars.length ≤ n + 1) :
    Leaves (·.2) n (readClassAtom sets f chars) := by
  unfold readClassAtom
  split
  · exact .none
  · exact leaves_readEscape (Nat.le_of_succ_le h)
  · exact .some (Nat.le_of_succ_le_succ h)

theorem leaves_readClassItem (h : chars.length ≤ n + 1) :
    Leaves (·.2) n (readClassItem sets f chars) := by
  unfold readClassItem
  refine .bind (leaves_readClassAtom h) fun (first, rest) hrest => ?_
  have hskip := f.length_skip_le hrest
  dsimp only
  generalize f.skip rest = text at hskip
  split
  · exact .none
  next after =>
    refine .ite (fun _ => .map_value fun s => hskip) fun _ => ?_
    have hafter : (f.skip after).length ≤ n + 1 :=
      f.length_skip_le (Nat.le_succ_of_le (Nat.le_of_succ_le hskip))
    exact .bind (leaves_readClassAtom hafter) fun p hp => .map_value fun s => hp
  · exact .map_value fun s => hskip

/-! ## Classes -/

/-- The mark that stands twice for an operator between the lists of a class. -/
def ClassOp.mark : ClassOp → Char
  | inter => '&'
  | diff => '-'
  | symmDiff => '~'

/-- Neither a bracket nor an operator comes next in a class, so it is a character or a range. -/
structure StartsItem (text : List Char) : Prop where
  nonempty : text ≠ []
  not_opening : ∀ rest, text ≠ '[' :: rest
  not_closing : ∀ rest, text ≠ ']' :: rest
  not_operator : ∀ op : ClassOp, ∀ rest, text ≠ op.mark :: op.mark :: rest

/-- What comes next in a class. -/
inductive ClassStart : List Char → Prop
  | nil : ClassStart []
  | opening (rest : List Char) : ClassStart ('[' :: rest)
  | closing (rest : List Char) : ClassStart (']' :: rest)
  | operator (op : ClassOp) (rest : List Char) : ClassStart (op.mark :: op.mark :: rest)
  | item {text : List Char} (h : StartsItem text) : ClassStart text

theorem classStart (text : List Char) : ClassStart text := by
  refine Classical.byContradiction fun hno => hno (.item ⟨?_, ?_, ?_, ?_⟩)
  · rintro rfl
    exact hno .nil
  · rintro rest rfl
    exact hno (.opening rest)
  · rintro rest rfl
    exact hno (.closing rest)
  · rintro op rest rfl
    exact hno (.operator op rest)

section

variable {fuel : Nat} {outer : List Bracket} {b : Bracket} {rest text : List Char}

/-- A class does not end where the text does. -/
theorem readBrackets_of_nil (h : f.skip chars = []) :
    readBrackets sets f fuel outer b chars = none := by
  cases fuel with
  | zero => rfl
  | succ fuel => rw [readBrackets, h]

/-- An opening bracket starts a named class, or else a class inside of the class. -/
theorem readBrackets_of_opening (h : f.skip chars = '[' :: rest) :
    readBrackets sets f (fuel + 1) outer b chars = (readAsciiClass rest).elim
      ((Bracket.opening f rest).bind fun p => readBrackets sets f fuel (b :: outer) p.1 p.2)
      fun p => (f.finish p.1 p.2.1).bind fun set =>
        readBrackets sets f fuel outer (b.add set 0) p.2.2 := by
  rw [readBrackets, h]
  simp only
  cases readAsciiClass rest with
  | none =>
    cases Bracket.opening f rest with
    | none => rfl
    | some p => rfl
  | some p =>
    obtain ⟨negated, set, rest⟩ := p
    dsimp only [Option.elim]
    cases f.finish negated set with
    | none => rfl
    | some set => rfl

/-- A closing bracket ends the innermost class. -/
theorem readBrackets_of_closing (h : f.skip chars = ']' :: rest) :
    readBrackets sets f (fuel + 1) outer b chars = (f.finish b.negated (b.value f).1).bind fun set =>
      outer.casesOn (some (set, (b.value f).2 + 1, rest)) fun parent outer =>
        readBrackets sets f fuel outer (parent.add set ((b.value f).2 + 1)) rest := by
  rw [readBrackets, h]
  dsimp only
  cases f.finish b.negated (b.value f).1 with
  | none => rfl
  | some set =>
    cases outer with
    | nil => rfl
    | cons parent outer => rfl

/-- An operator ends a list of the class. -/
theorem readBrackets_of_operator {op : ClassOp} (h : f.skip chars = op.mark :: op.mark :: rest) :
    readBrackets sets f (fuel + 1) outer b chars =
      readBrackets sets f fuel outer (b.operate f op) rest := by
  rw [readBrackets, h]
  cases op <;> rfl

/-- Anything else is an item of the list. -/
theorem readBrackets_of_item (h : f.skip chars = text) (hitem : StartsItem text) :
    readBrackets sets f (fuel + 1) outer b chars =
      (readClassItem sets f text).bind fun p => readBrackets sets f fuel outer (b.add p.1 0) p.2 := by
  rw [readBrackets, h]
  split
  case h_1 => exact (hitem.nonempty rfl).elim
  case h_2 => exact (hitem.not_opening _ rfl).elim
  case h_3 => exact (hitem.not_closing _ rfl).elim
  case h_4 => exact (hitem.not_operator .inter _ rfl).elim
  case h_5 => exact (hitem.not_operator .diff _ rfl).elim
  case h_6 => exact (hitem.not_operator .symmDiff _ rfl).elim
  case h_7 =>
    cases readClassItem sets f text with
    | none => rfl
    | some p => rfl

end

theorem leaves_readBrackets (fuel : Nat) (outer : List Bracket) (b : Bracket) (h : chars.length ≤ n) :
    Leaves (·.2.2) n (readBrackets sets f fuel outer b chars) := by
  induction fuel generalizing chars outer b with
  | zero => exact .none
  | succ fuel ih =>
    have hlength := f.length_skip_le h
    generalize hskip : f.skip chars = text at hlength
    cases classStart text with
    | nil =>
      rw [readBrackets_of_nil hskip]
      exact .none
    | opening rest =>
      have hrest : rest.length ≤ n := Nat.le_of_succ_le hlength
      rw [readBrackets_of_opening hskip]
      cases hread : readAsciiClass rest with
      | some p => exact .bind_value fun set => ih _ _ (leaves_readAsciiClass hrest _ hread)
      | none => exact .bind (leaves_opening hrest) fun p hp => ih _ _ hp
    | closing rest =>
      have hrest : rest.length ≤ n := Nat.le_of_succ_le hlength
      rw [readBrackets_of_closing hskip]
      refine .bind_value fun set => ?_
      cases outer with
      | nil => exact .some hrest
      | cons parent outer => exact ih _ _ hrest
    | operator op rest =>
      rw [readBrackets_of_operator hskip]
      exact ih _ _ (Nat.le_of_succ_le (Nat.le_of_succ_le hlength))
    | item hitem =>
      rw [readBrackets_of_item hskip hitem]
      exact .bind (leaves_readClassItem (Nat.le_succ_of_le hlength)) fun p hp => ih _ _ hp

/-- More fuel than characters makes no difference. -/
theorem readBrackets_fuel {fuel fuel' : Nat} (outer : List Bracket) (b : Bracket)
    (h : chars.length < fuel) (h' : chars.length < fuel') :
    readBrackets sets f fuel outer b chars = readBrackets sets f fuel' outer b chars := by
  induction fuel generalizing fuel' chars outer b with
  | zero => exact absurd h (Nat.not_lt_zero _)
  | succ fuel ih =>
    obtain ⟨fuel', rfl⟩ := Nat.exists_eq_add_of_lt (Nat.zero_lt_of_lt h')
    rw [Nat.zero_add] at h' ⊢
    have hlength := f.length_skip_le (Nat.le_refl chars.length)
    generalize hskip : f.skip chars = text at hlength
    cases classStart text with
    | nil => rw [readBrackets_of_nil hskip, readBrackets_of_nil hskip]
    | opening rest =>
      rw [List.length_cons] at hlength
      rw [readBrackets_of_opening hskip, readBrackets_of_opening hskip]
      cases hread : readAsciiClass rest with
      | some p =>
        have hrest := leaves_readAsciiClass (Nat.le_refl _) _ hread
        dsimp only at hrest
        exact Option.bind_congr fun set _ => ih _ _ (by omega) (by omega)
      | none =>
        refine Option.bind_congr fun p hp => ?_
        have hrest := leaves_opening (Nat.le_refl _) _ hp
        dsimp only at hrest
        exact ih _ _ (by omega) (by omega)
    | closing rest =>
      rw [List.length_cons] at hlength
      rw [readBrackets_of_closing hskip, readBrackets_of_closing hskip]
      refine Option.bind_congr fun set _ => ?_
      cases outer with
      | nil => rfl
      | cons parent outer => exact ih _ _ (by omega) (by omega)
    | operator op rest =>
      simp only [List.length_cons] at hlength
      rw [readBrackets_of_operator hskip, readBrackets_of_operator hskip]
      exact ih _ _ (by omega) (by omega)
    | item hitem =>
      have hpos : 0 < text.length := List.length_pos_iff.2 hitem.nonempty
      rw [readBrackets_of_item hskip hitem, readBrackets_of_item hskip hitem]
      refine Option.bind_congr fun p hp => ?_
      have hrest := leaves_readClassItem (n := text.length - 1) (by omega) _ hp
      dsimp only at hrest
      exact ih _ _ (by omega) (by omega)

theorem leaves_readClass (h : chars.length ≤ n) : Leaves (·.2.2) n (readClass sets f chars) := by
  unfold readClass
  exact .bind (leaves_opening h) fun p hp => leaves_readBrackets _ _ _ hp

/-! ## Groups, flags and repetitions -/

theorem leaves_readGroupName (name : List Char) (h : chars.length ≤ n) :
    Leaves (·.2) n (readGroupName name chars) := by
  induction chars generalizing name with
  | nil => exact .none
  | cons c chars ih =>
    have hchars : chars.length ≤ n := Nat.le_of_succ_le h
    unfold readGroupName
    refine .ite (fun _ => .ite (fun _ => .none) fun _ => .some hchars) fun _ => ?_
    exact .ite (fun _ => ih _ hchars) fun _ => .none

theorem leaves_readFlags (flags : Flags) (seen : List Char) (h : chars.length ≤ n) :
    Leaves (·.2.2.2) n (readFlags flags seen chars) := by
  induction chars generalizing flags seen with
  | nil => exact .none
  | cons c chars ih =>
    have hchars : chars.length ≤ n := Nat.le_of_succ_le h
    unfold readFlags
    refine .ite (fun _ => .ite (fun _ => .none) fun _ => .some hchars) fun _ => ?_
    refine .ite (fun _ => .none) fun _ => .ite (fun _ => ih _ _ hchars) fun _ => ?_
    cases flags.switch (!seen.contains '-') c with
    | none => exact .none
    | some flags => exact ih _ _ hchars

theorem length_groupStart_le (h : chars.length ≤ n) : (groupStart chars).2.length ≤ n := by
  fun_cases groupStart chars <;> simp only [List.length_cons] at h ⊢ <;> omega

theorem leaves_readGroup (h : chars.length ≤ n) : Leaves (·.2) n (readGroup s chars) := by
  have hstart := length_groupStart_le (s.flags.length_skip_le h)
  unfold readGroup
  generalize groupStart (s.flags.skip chars) = start at hstart
  obtain ⟨kind, rest⟩ := start
  cases kind with
  | condition => exact .none
  | named =>
    exact .bind (leaves_readGroupName [] hstart) fun p hp => .ite (fun _ => .none) fun _ => .some hp
  | flags =>
    refine .bind (leaves_readFlags s.flags [] hstart) fun p hp => ?_
    exact .ite (fun _ => .some hp) fun _ => .ite (fun _ => .none) fun _ => .some hp
  | plain => exact .some hstart

theorem leaves_readCount (h : chars.length ≤ n) : Leaves (·.2) n (readCount f chars) := by
  have hspan := f.length_span_le Char.isDigit false (length_dropBlanks_le h)
  exact .ite (fun _ => .none) fun _ => .some (length_dropBlanks_le hspan)

theorem leaves_readMost (least : Nat) (h : chars.length ≤ n) :
    Leaves (·.2) n (readMost f least chars) := by
  unfold readMost
  split
  next rest =>
    have hskip := f.length_skip_le (Nat.le_of_succ_le h)
    generalize f.skip rest = text at hskip
    split
    · exact .some hskip
    · exact .map (leaves_readCount hskip) fun p hp => hp
  · exact .some h

theorem leaves_readCounts (h : chars.length ≤ n) : Leaves (·.2.2) n (readCounts f chars) := by
  unfold readCounts
  refine .bind (leaves_readCount (f.length_skip_le h)) fun (least, rest) hrest => ?_
  refine .bind (leaves_readMost least hrest) fun (most, rest) hrest => ?_
  dsimp only at hrest ⊢
  split
  · exact .ite (fun _ => .some (Nat.le_of_succ_le hrest)) fun _ => .none
  · exact .none

theorem leaves_readLoop (least : Nat) (most : Option Nat) (h : chars.length ≤ n) :
    Leaves (·.2) n (s.readLoop least most chars) :=
  .map_value fun _ => length_marked_le '?' h

/-! ## Pieces -/

/-- A piece takes nothing but what follows its first character. -/
theorem leaves_readPiece (h : chars.length ≤ n) : Leaves (·.2) n (readPiece sets s c chars) := by
  unfold readPiece
  refine .ite (fun _ => leaves_readGroup h) fun _ => .ite (fun _ => .map_value fun s => h) fun _ => ?_
  refine .ite (fun _ => .some h) fun _ => .ite (fun _ => ?_) fun _ => ?_
  · exact .bind (leaves_readClass h) fun p hp => .some hp
  refine .ite (fun _ => leaves_readLoop _ _ h) fun _ => ?_
  refine .ite (fun _ => leaves_readLoop _ _ h) fun _ => ?_
  refine .ite (fun _ => leaves_readLoop _ _ h) fun _ => .ite (fun _ => ?_) fun _ => ?_
  · refine .bind (leaves_readCounts h) fun p hp => ?_
    exact leaves_readLoop _ _ (s.flags.length_skip_le hp)
  refine .ite (fun _ => ?_) fun _ => .ite (fun _ => .map_value fun set => h) fun _ => ?_
  · refine .bind (leaves_readEscape (Nat.le_succ_of_le h)) fun p hp => .bind_value fun s => .some hp
  exact .ite (fun _ => .some h) fun _ => .ite (fun _ => .some h) fun _ => .some h

/-- At its end a pattern has been read. -/
theorem readPieces_of_nil {fuel : Nat} (h : s.flags.skip chars = []) :
    readPieces sets (fuel + 1) s chars = some s := by
  rw [readPieces, h]

/-- Before its end one piece is read after another. -/
theorem readPieces_of_cons {fuel : Nat} {rest : List Char} (h : s.flags.skip chars = c :: rest) :
    readPieces sets (fuel + 1) s chars =
      (readPiece sets s c rest).bind fun p => readPieces sets fuel p.1 p.2 := by
  rw [readPieces, h]
  dsimp only
  cases readPiece sets s c rest with
  | none => rfl
  | some p => rfl

/-- More fuel than characters makes no difference. -/
theorem readPieces_fuel {fuel fuel' : Nat} (h : chars.length < fuel) (h' : chars.length < fuel') :
    readPieces sets fuel s chars = readPieces sets fuel' s chars := by
  induction fuel generalizing fuel' s chars with
  | zero => exact absurd h (Nat.not_lt_zero _)
  | succ fuel ih =>
    obtain ⟨fuel', rfl⟩ := Nat.exists_eq_add_of_lt (Nat.zero_lt_of_lt h')
    rw [Nat.zero_add] at h' ⊢
    have hskip := s.flags.length_skip_le (Nat.le_refl chars.length)
    cases htext : s.flags.skip chars with
    | nil => rw [readPieces_of_nil htext, readPieces_of_nil htext]
    | cons c rest =>
      rw [readPieces_of_cons htext, readPieces_of_cons htext]
      rw [htext, List.length_cons] at hskip
      cases hread : readPiece sets s c rest with
      | none => rfl
      | some next =>
        have hrest := leaves_readPiece (Nat.le_refl _) _ hread
        dsimp only at hrest
        exact ih (by omega) (by omega)

end Descent.Pattern
