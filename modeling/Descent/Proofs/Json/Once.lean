import Descent.Proofs.Json.Recursion
import Descent.Proofs.Pending

/-!
# Each value is read once

The grammar of JSON goes back to an earlier place of a text whenever a part fails, and tries something
else there. Still no place is tried for a value twice (`value_read_once`). A value that fails can only
be one that is missing from an empty array, if the array is closed there. In all other cases what is
tried next fails without reading a value: after a list that a comma has ended nothing is closed, where
a pair has begun no object is closed, and what begins with a bracket is no literal.
-/

namespace Descent.Json

open Store
open Standard (Container)

variable {s : Store} {table high : Nat} {t x y : Text} {m : List Char} {l : Log} {n : RuleName}
  {p q : Parser} {r : Run} {k : Container}

/-! ## What rules leave -/

/-- What a rule has matched and what it leaves make up the text, and it leaves less. -/
theorem taken (htable : s.table table = .ready (rules table))
    (h : s.Runs (ref table n) x ⟨.success m y, l⟩) : m ++ y.chars = x.chars ∧ y.size < x.size := by
  have hplain := everywhere_plain htable (all_ref table n)
  have hinside : s.Everywhere (Store.Inside table) (ref table n) :=
    fun q hq => ⟨(hplain q hq).1.shrinking, (hplain q hq).2.2⟩
  exact ⟨h.conserves fun q hq => (hplain q hq).2.1,
    h.takes htable (forall_rules (fun body => body.takes = true) (takes_body table)) hinside rfl m y
      rfl⟩

/-- A parser that is put together from rules leaves an end part. -/
theorem suffix_of_runs (htable : s.table table = .ready (rules table)) (hp : p.All (Plain table))
    (h : s.Runs p x ⟨.success m y, l⟩) (hx : x.chars <:+ t.chars) : y.chars <:+ t.chars :=
  (h.suffix (fun q hq => (everywhere_plain htable hp q hq).1.shrinking) rfl).trans hx

/-- What is rejected fails. -/
theorem failure_of_rejects (h : s.Rejects p x.chars) (hrun : s.Runs p x r) :
    ∃ y, r.outcome = .failure y := by
  obtain ⟨y, l, hfail⟩ := h
  rw [Text.ofList_chars] at hfail
  exact ⟨y, congrArg Run.outcome (hrun.unique hfail)⟩

/-! ## Parsers that read values -/

/-- Values are entered on shorter and shorter end parts of the text, and none after one has failed,
unless it is missing from an empty array. -/
abbrev Reads (t : Text) (last : Bool) (high low : Nat) (log : Log) : Prop :=
  Follows "value" t ']' last high low log

/-- On the text the parser reads no values. -/
def Silent (s : Store) (p : Parser) (x : Text) : Prop := ∀ r, s.Runs p x r → Quiet "value" r.log

/-- On the text the parser reads values that are longer than what it leaves, if it succeeds. If it
fails, a value may have failed, and was the last then. -/
def Tries (s : Store) (t : Text) (p : Parser) (x : Text) (high : Nat) : Prop :=
  ∀ r, s.Runs p x r →
    match r.outcome with
    | .success _ y => Reads t false high (y.size + 1) r.log
    | .failure _ => Reads t true high 0 r.log

/-- A choice reads no values if neither of its parts does. -/
theorem Silent.orElse (hp : Silent s p x) (hq : Silent s q x) : Silent s (.orElse p q) x := by
  intro r hrun
  rcases hrun.orElse_cases with ⟨m, y, l, hfirst, rfl⟩ | ⟨y, l, o, l', hfirst, hsecond, rfl⟩
  · exact hp _ hfirst
  · exact (hp _ hfirst).append (hq _ hsecond)

/-- A parser does what its simpler form does. -/
theorem Silent.expand (hp : p.expand? = some q) (hq : Silent s q x) : Silent s p x :=
  fun r hrun => hq r (hrun.simpler hp)

/-- A sequence reads no values if its parts read none. -/
theorem Silent.andThen (hp : Silent s p x)
    (hq : ∀ m y l, s.Runs p x ⟨.success m y, l⟩ → Silent s q y) : Silent s (.andThen p q) x := by
  intro r hrun
  rcases hrun.joins_cases (.andThen ..) with ⟨y, l, hfirst, rfl⟩ |
    ⟨m, y, l, z, l', hfirst, hsecond, rfl⟩ | ⟨m, y, l, n, z, l', hfirst, hsecond, rfl⟩
  · exact hp ⟨.failure y, l⟩ hfirst
  · exact (hp _ hfirst).append (hq m y l hfirst _ hsecond)
  · exact (hp _ hfirst).append (hq m y l hfirst _ hsecond)

/-- A sequence reads no values if its first part reads none and fails. -/
theorem Silent.breaks (hp : Silent s p x) (hrejects : s.Rejects p x.chars) :
    Silent s (.andThen p q) x :=
  hp.andThen fun m y l hrun => by
    obtain ⟨_, hfail⟩ := failure_of_rejects hrejects hrun
    cases hfail

/-- A rule does what its body does. -/
theorem Silent.call (htable : s.table table = .ready (rules table)) (hn : n.text ≠ "value")
    (h : Silent s (n.body (ref table)) x) : Silent s (ref table n) x := by
  intro r hrun
  obtain ⟨o, l, hbody, rfl⟩ := hrun.rule_cases rfl (rule?_slot htable n)
  exact (h _ hbody).call hn

/-- A token reads no values. -/
theorem silent_token (htable : s.table table = .ready (rules table)) (hn : n.IsToken) :
    Silent s (ref table n) x := by
  intro r hrun
  have hnests := (tame_token htable hn x r trivial hrun).1
  refine .of_nests hnests fun inner hinner => List.count_eq_zero.1 ?_
  exact Nat.le_zero.1 hinner.2

/-- Blanks that may be missing read no values. -/
theorem silent_blanks (htable : s.table table = .ready (rules table)) :
    Silent s (.orElse (ref table .ws) .empty) x :=
  .orElse (silent_token htable (by decide)) fun r hrun => by
    rw [hrun.eq_direct rfl]
    exact .nil

namespace Tries

/-- A parser that reads no values. -/
theorem of_silent (h : Silent s p x) : Tries s t p x high := by
  rintro ⟨o, l⟩ hrun
  cases o with
  | success m y => exact .of_quiet (h _ hrun)
  | failure y => exact .of_quiet (h _ hrun)

/-- The second part of a choice may read values if the first does not. -/
theorem orElse_late (hp : Silent s p x) (hq : Tries s t q x high) :
    Tries s t (.orElse p q) x high := by
  intro r hrun
  rcases hrun.orElse_cases with ⟨m, y, l, hfirst, rfl⟩ | ⟨y, l, o, l', hfirst, hsecond, rfl⟩
  · exact of_silent hp _ hfirst
  · cases o with
    | success m z => exact .quiet_append (hp _ hfirst) (hq _ hsecond)
    | failure z => exact .quiet_append (hp _ hfirst) (hq _ hsecond)

/-- The first part may if the second fails, and reads none. -/
theorem orElse (hp : Tries s t p x high) (hq : Silent s q x) (hrejects : s.Rejects q x.chars) :
    Tries s t (.orElse p q) x high := by
  intro r hrun
  rcases hrun.orElse_cases with ⟨m, y, l, hfirst, rfl⟩ | ⟨y, l, o, l', hfirst, hsecond, rfl⟩
  · exact hp _ hfirst
  · obtain ⟨z, rfl⟩ : ∃ z, o = .failure z := failure_of_rejects hrejects hsecond
    exact .append_quiet (hp _ hfirst) (hq _ hsecond)

/-- The first part of a sequence may, if the second part reads none and leaves no more than it was
given. If a value has failed, so has the first part. -/
theorem andThen (hp : Tries s t p x high)
    (hq : ∀ y, Silent s q y)
    (hle : ∀ y m z l, s.Runs q y ⟨.success m z, l⟩ → z.size ≤ y.size) :
    Tries s t (.andThen p q) x high := by
  intro r hrun
  rcases hrun.joins_cases (.andThen ..) with ⟨y, l, hfirst, rfl⟩ |
    ⟨m, y, l, z, l', hfirst, hsecond, rfl⟩ | ⟨m, y, l, n, z, l', hfirst, hsecond, rfl⟩
  · exact hp _ hfirst
  · have hreads : Reads t false high (y.size + 1) l := hp _ hfirst
    exact (hreads.toLast.mono le_rfl (Nat.zero_le _)).append_quiet (hq y _ hsecond)
  · have hreads : Reads t false high (y.size + 1) l := hp _ hfirst
    exact (hreads.mono le_rfl (Nat.succ_le_succ (hle y n z l' hsecond))).append_quiet
      (hq y _ hsecond)

/-- The second part of a sequence may read values, if the first part reads none. -/
theorem andThen_late (hp : Silent s p x)
    (hq : ∀ m y l, s.Runs p x ⟨.success m y, l⟩ → Tries s t q y high) :
    Tries s t (.andThen p q) x high := by
  intro r hrun
  rcases hrun.joins_cases (.andThen ..) with ⟨y, l, hfirst, rfl⟩ |
    ⟨m, y, l, z, l', hfirst, hsecond, rfl⟩ | ⟨m, y, l, n, z, l', hfirst, hsecond, rfl⟩
  · exact .of_quiet (hp ⟨.failure y, l⟩ hfirst)
  · exact .quiet_append (hp _ hfirst) (hq m y l hfirst _ hsecond)
  · exact .quiet_append (hp _ hfirst) (hq m y l hfirst _ hsecond)

/-- Less may be asked. -/
theorem mono {high' : Nat} (h : Tries s t p x high) (hhigh : high ≤ high') :
    Tries s t p x high' := by
  rintro ⟨o, l⟩ hrun
  cases o with
  | success m y => exact Follows.mono (h _ hrun) hhigh le_rfl
  | failure y => exact Follows.mono (h _ hrun) hhigh le_rfl

/-- A parser does what its simpler form does. -/
theorem expand (hp : p.expand? = some q) (hq : Tries s t q x high) : Tries s t p x high :=
  fun r hrun => hq r (hrun.simpler hp)

/-- A rule that reads no value itself does what its body does. -/
theorem call (htable : s.table table = .ready (rules table)) (hn : n.text ≠ "value")
    (h : Tries s t (n.body (ref table)) x high) : Tries s t (ref table n) x high := by
  intro r hrun
  obtain ⟨o, l, hbody, rfl⟩ := hrun.rule_cases rfl (rule?_slot htable n)
  cases o with
  | success m y => exact .call (h _ hbody) hn
  | failure y => exact .call (h _ hbody) hn

end Tries

/-- How an item is read. At a closing bracket it does no harm if it fails. -/
structure ReadsItem (s : Store) (table : Nat) (t : Text) (k : Container) (x : Text) : Prop where
  tries : Tries s t (ref table k.item) x (x.size + 1)
  closing : x.chars.head? = some k.closing → ∀ r, s.Runs (ref table k.item) x r →
    Reads t false (x.size + 1) x.size r.log

/-! ## Brackets and commas -/

/-- The text starts with a comma, maybe with blanks before it. -/
def AtComma (x : Text) : Prop := ∃ blanks ∈ Standard.ws, ∃ rest, x.chars = blanks ++ ',' :: rest

section

variable (htable : s.table table = .ready (rules table))
include htable

/-- No bracket is closed where something else follows the blanks. -/
theorem rejects_closer {blanks rest : List Char} (hblanks : blanks ∈ Standard.ws)
    (hrest : Tight rest) (hclosing : ∀ c ∈ rest.head?, c ≠ k.closing) :
    s.Rejects (ref table k.closer) (blanks ++ rest) := by
  refine rejects_ref htable _ ?_
  rw [body_closer]
  exact .expand rfl (.andThen_late (accepts_blanks htable hblanks hrest) (rejects_one hclosing))

/-- At a comma no bracket is closed. -/
theorem AtComma.rejects_closer (h : AtComma x) : s.Rejects (ref table k.closer) x.chars := by
  obtain ⟨blanks, hblanks, rest, hx⟩ := h
  rw [hx]
  refine Json.rejects_closer htable hblanks (forall_head_cons (by decide)) (forall_head_cons ?_)
  cases k <;> decide

/-- No bracket is opened where something else stands. -/
theorem rejects_opener (hhead : x.chars.head? ≠ some k.opening) :
    s.Rejects (ref table k.opener) x.chars := by
  refine rejects_ref htable _ ?_
  rw [body_opener]
  refine .expand rfl (.andThen (rejects_one fun c hc heq => hhead ?_))
  rw [← heq]
  exact hc

/-- An opening bracket leaves no blanks. -/
theorem tight_of_opener (h : s.Runs (ref table k.opener) x ⟨.success m y, l⟩) : Tight y.chars := by
  by_cases hhead : x.chars.head? = some k.opening
  · obtain ⟨rest, hx⟩ := List.head?_eq_some_iff.1 hhead
    let blank : Char → Bool := fun c => [' ', '\t', '\n', '\r'].contains c
    have hblanks : rest.takeWhile blank ∈ Standard.ws :=
      mem_kstar_single_iff.2 fun c hc => by simpa [blank] using List.mem_takeWhile_imp hc
    have htight : Tight (rest.dropWhile blank) := fun c hc => by
      have hkind := List.head?_dropWhile_not blank rest
      rw [Option.mem_def.1 hc] at hkind
      simpa [blank] using hkind
    obtain ⟨l', haccepts⟩ : s.Accepts (ref table k.opener) ([k.opening] ++ rest.takeWhile blank)
        (rest.dropWhile blank) := by
      refine accepts_ref htable _ ?_
      rw [body_opener]
      exact accepts_opening htable _ hblanks htight
    have hall : [k.opening] ++ rest.takeWhile blank ++ rest.dropWhile blank = x.chars := by
      rw [List.append_assoc, List.takeWhile_append_dropWhile, hx]
      rfl
    rw [hall, Text.ofList_chars] at haccepts
    cases h.unique haccepts
    exact htight
  · obtain ⟨_, hfail⟩ := failure_of_rejects (rejects_opener htable hhead) h
    cases hfail

end

/-! ## Lists of items -/

section

variable (htable : s.table table = .ready (rules table))
include htable

/-- A comma leaves a shorter end part. -/
theorem comma_of_runs (hx : x.chars <:+ t.chars)
    (h : s.Runs (ref table .comma) x ⟨.success m y, l⟩) :
    AtComma x ∧ y.chars <:+ t.chars ∧ y.size < x.size := by
  obtain ⟨happend, hlt⟩ := taken htable h
  obtain ⟨_, ⟨blanks, hblanks, _, rfl, rfl⟩, more, _, rfl⟩ := mem_words_of_runs htable h
  exact ⟨⟨blanks, hblanks, more ++ y.chars, by rw [← happend]; simp⟩,
    suffix_of_runs htable (all_ref ..) h hx, hlt⟩

/-- A comma and an item. If the item fails, the list ends at the comma. -/
theorem reads_next (hx : x.chars <:+ t.chars)
    (hitem : ∀ y : Text, y.chars <:+ t.chars → y.size < x.size → ReadsItem s table t k y)
    (h : s.Runs (.andThen (ref table .comma) (ref table k.item)) x r) :
    (∃ m y, r.outcome = .success m y ∧ y.chars <:+ t.chars ∧ y.size < x.size ∧
        Reads t false x.size (y.size + 1) r.log) ∨
      (∃ y, r.outcome = .failure y) ∧
        (Quiet "value" r.log ∨ AtComma x ∧ Reads t true x.size 0 r.log) := by
  have hquiet {r : Run} (hrun : s.Runs (ref table .comma) x r) : Quiet "value" r.log :=
    silent_token htable (by decide) r hrun
  rcases h.joins_cases (.andThen ..) with ⟨y, l, hcomma, rfl⟩ | ⟨m, y, l, z, l', hcomma, hrun, rfl⟩ |
    ⟨m, y, l, n, z, l', hcomma, hrun, rfl⟩
  · have hquiet := hquiet hcomma
    exact .inr ⟨⟨_, rfl⟩, .inl hquiet⟩
  · obtain ⟨hat, hy, hlt⟩ := comma_of_runs htable hx hcomma
    have hreads := (hitem y hy hlt).tries _ hrun
    exact .inr ⟨⟨_, rfl⟩, .inr ⟨hat, (hreads.mono hlt le_rfl).quiet_append (hquiet hcomma)⟩⟩
  · obtain ⟨_, hy, hlt⟩ := comma_of_runs htable hx hcomma
    have hreads := (hitem y hy hlt).tries _ hrun
    exact .inl ⟨_, z, rfl, suffix_of_runs htable (all_ref ..) hrun hy, (taken htable hrun).2.trans hlt,
      (hreads.mono hlt le_rfl).quiet_append (hquiet hcomma)⟩

/-- More items, each after a comma. They end where no comma follows, or at a comma that no item
follows. -/
theorem reads_more (hx : x.chars <:+ t.chars)
    (hitem : ∀ y : Text, y.chars <:+ t.chars → y.size < x.size → ReadsItem s table t k y)
    (h : s.Runs (.many0 (.andThen (ref table .comma) (ref table k.item))) x r) :
    ∃ m y, r.outcome = .success m y ∧ y.chars <:+ t.chars ∧ y.size ≤ x.size ∧
      (Reads t false x.size (y.size + 1) r.log ∨ AtComma y ∧ Reads t true x.size 0 r.log) := by
  generalize hsize : x.size = size at hitem
  induction size using Nat.strong_induction_on generalizing x r with
  | _ size ih =>
    subst hsize
    cases h with
    | stop hbody =>
      refine ⟨[], x, rfl, hx, le_rfl, ?_⟩
      rcases reads_next htable hx hitem hbody with ⟨m, y, heq, _⟩ | ⟨_, hquiet | hcomma⟩
      · cases heq
      · exact .inl (.of_quiet hquiet)
      · exact .inr hcomma
    | @last _ _ m y l hbody _ =>
      rcases reads_next htable hx hitem hbody with ⟨_, _, heq, hy, hlt, hreads⟩ | ⟨⟨_, heq⟩, _⟩
      · cases heq
        exact ⟨m, y, rfl, hy, hlt.le, .inl hreads⟩
      · cases heq
    | @more _ _ m y l n z l' hbody _ hrest =>
      rcases reads_next htable hx hitem hbody with ⟨_, _, heq, hy, hlt, hreads⟩ | ⟨⟨_, heq⟩, _⟩
      · cases heq
        obtain ⟨_, _, heq, hz, hle, hrest⟩ :=
          ih y.size hlt hy hrest rfl fun z hz hz' => hitem z hz (hz'.trans hlt)
        cases heq
        refine ⟨m ++ n, z, rfl, hz, hle.trans hlt.le, hrest.imp (fun hrest => ?_) ?_⟩
        · exact hreads.append hrest (Nat.le_succ _) hlt.le (by omega)
        · rintro ⟨hcomma, hrest⟩
          exact ⟨hcomma, hreads.append hrest (Nat.le_succ _) hlt.le (by omega)⟩
      · cases heq
    | _ => contradiction

/-- All items. -/
theorem reads_items (hx : x.chars <:+ t.chars)
    (hitem : ∀ y : Text, y.chars <:+ t.chars → y.size ≤ x.size → ReadsItem s table t k y)
    (h : s.Runs (ref table k.items) x r) :
    (∃ m y, r.outcome = .success m y ∧ y.chars <:+ t.chars ∧ y.size ≤ x.size ∧
        (Reads t false (x.size + 1) (y.size + 1) r.log ∨
          AtComma y ∧ Reads t true (x.size + 1) 0 r.log)) ∨
      (∃ y, r.outcome = .failure y) ∧ Reads t true (x.size + 1) 0 r.log ∧
        (x.chars.head? = some k.closing → Reads t false (x.size + 1) x.size r.log) := by
  have hname : k.items.text ≠ "value" := by cases k <;> decide
  obtain ⟨hfirst, hclosing⟩ := hitem x hx le_rfl
  obtain ⟨o, l, hbody, rfl⟩ := h.rule_cases rfl (rule?_slot htable k.items)
  rw [body_items] at hbody
  rcases hbody.joins_cases (.andThen ..) with ⟨y, l, hrun, heq⟩ | ⟨m, y, l, z, l', hrun, hloop, heq⟩ |
    ⟨m, y, l, n, z, l', hrun, hloop, heq⟩
  · cases heq
    exact .inr ⟨⟨_, rfl⟩, (hfirst _ hrun).call hname,
      fun hhead => (hclosing hhead _ hrun).call hname⟩
  · cases hloop.ok_of_many0
  · cases heq
    obtain ⟨_, hlt⟩ := taken htable hrun
    have hreads := hfirst _ hrun
    obtain ⟨_, _, heq, hz, hle, hrest⟩ := reads_more htable (suffix_of_runs htable (all_ref ..) hrun hx)
      (fun z hz hz' => hitem z hz (hz'.trans hlt).le) hloop
    cases heq
    refine .inl ⟨_, z, rfl, hz, hle.trans hlt.le, hrest.imp (fun hrest => ?_) ?_⟩
    · exact (hreads.append hrest (Nat.le_succ _) (by omega) (by omega)).call hname
    · rintro ⟨hcomma, hrest⟩
      exact ⟨hcomma, (hreads.append hrest (Nat.le_succ _) (by omega) (by omega)).call hname⟩

/-- All items, or none. Where an item has failed, no bracket is closed, unless it is the first, and
only because there is none. -/
theorem reads_content (hx : x.chars <:+ t.chars) (htight : Tight x.chars)
    (hitem : ∀ y : Text, y.chars <:+ t.chars → y.size ≤ x.size → ReadsItem s table t k y)
    (h : s.Runs (.orElse (ref table k.items) .empty) x r) :
    ∃ m y, r.outcome = .success m y ∧ y.chars <:+ t.chars ∧ y.size ≤ x.size ∧
      (Reads t false (x.size + 1) y.size r.log ∨
        s.Rejects (ref table k.closer) y.chars ∧ Reads t true (x.size + 1) 0 r.log) := by
  rcases h.orElse_cases with ⟨m, y, l, hitems, rfl⟩ | ⟨_, l, o, l', hitems, hempty, rfl⟩
  · rcases reads_items htable hx hitem hitems with ⟨_, _, heq, hy, hle, hreads⟩ | ⟨⟨_, heq⟩, _⟩
    · cases heq
      refine ⟨m, y, rfl, hy, hle, hreads.imp (fun hreads => ?_) ?_⟩
      · exact hreads.mono le_rfl (Nat.le_succ _)
      · rintro ⟨hcomma, hreads⟩
        exact ⟨hcomma.rejects_closer htable, hreads⟩
    · cases heq
  · cases hempty.eq_direct rfl
    rcases reads_items htable hx hitem hitems with ⟨_, _, heq, _⟩ | ⟨_, hreads, hclosing⟩
    · cases heq
    · refine ⟨[], x, rfl, hx, le_rfl, ?_⟩
      by_cases hhead : x.chars.head? = some k.closing
      · exact .inl ((hclosing hhead).append_quiet .nil)
      · have hrejects := rejects_closer (k := k) htable (Language.nil_mem_kstar _) htight
          fun c hc heq => hhead (heq ▸ hc)
        exact .inr ⟨hrejects, hreads.append_quiet .nil⟩

/-! ## Arrays and objects -/

/-- Without its bracket an array or object reads no values. -/
theorem silent_whole (hhead : x.chars.head? ≠ some k.opening) : Silent s (ref table k.whole) x := by
  have hname : k.whole.text ≠ "value" := by cases k <;> decide
  have htoken : k.opener.IsToken := by cases k <;> decide
  have hopener := rejects_opener htable hhead
  refine .call htable hname ?_
  rw [body_whole]
  exact .expand rfl (.breaks (.breaks (silent_token htable htoken) hopener) (.andThen hopener))

/-- All up to the closing bracket. -/
theorem reads_opened (hx : x.chars <:+ t.chars)
    (hitem : ∀ y : Text, y.chars <:+ t.chars → y.size < x.size → ReadsItem s table t k y)
    (h : s.Runs (.andThen (ref table k.opener) (.orElse (ref table k.items) .empty)) x r) :
    (∃ m y, r.outcome = .success m y ∧ y.chars <:+ t.chars ∧
        (Reads t false x.size y.size r.log ∨
          s.Rejects (ref table k.closer) y.chars ∧ Reads t true x.size 0 r.log)) ∨
      (∃ y, r.outcome = .failure y) ∧ Quiet "value" r.log := by
  have htoken : k.opener.IsToken := by cases k <;> decide
  have hquiet {r : Run} (hrun : s.Runs (ref table k.opener) x r) : Quiet "value" r.log :=
    silent_token htable htoken r hrun
  have hcontent {m y l r} (hopener : s.Runs (ref table k.opener) x ⟨.success m y, l⟩)
      (hrun : s.Runs (.orElse (ref table k.items) .empty) y r) :=
    reads_content htable (suffix_of_runs htable (all_ref ..) hopener hx) (tight_of_opener htable hopener)
      (fun z hz hz' => hitem z hz (hz'.trans_lt (taken htable hopener).2)) hrun
  rcases h.joins_cases (.andThen ..) with ⟨y, l, hopener, rfl⟩ | ⟨m, y, l, z, l', hopener, hrun, rfl⟩ |
    ⟨m, y, l, n, z, l', hopener, hrun, rfl⟩
  · have hquiet := hquiet hopener
    exact .inr ⟨⟨_, rfl⟩, hquiet⟩
  · obtain ⟨_, _, heq, _⟩ := hcontent hopener hrun
    cases heq
  · obtain ⟨_, _, heq, hz, _, hreads⟩ := hcontent hopener hrun
    cases heq
    have hlt : y.size + 1 ≤ x.size := (taken htable hopener).2
    refine .inl ⟨_, z, rfl, hz, hreads.imp (fun hreads => ?_) ?_⟩
    · exact (hreads.mono hlt le_rfl).quiet_append (hquiet hopener)
    · rintro ⟨hrejects, hreads⟩
      exact ⟨hrejects, (hreads.mono hlt le_rfl).quiet_append (hquiet hopener)⟩

/-- Items between brackets. If an item has failed, they fail as well. -/
theorem tries_whole (hx : x.chars <:+ t.chars)
    (hitem : ∀ y : Text, y.chars <:+ t.chars → y.size < x.size → ReadsItem s table t k y) :
    Tries s t (ref table k.whole) x x.size := by
  have hname : k.whole.text ≠ "value" := by cases k <;> decide
  have htoken : k.closer.IsToken := by cases k <;> decide
  refine .call htable hname ?_
  rw [body_whole]
  intro r hrun
  rcases (hrun.simpler rfl).joins_cases (.andThen ..) with ⟨y, l, hopened, rfl⟩ |
    ⟨m, y, l, z, l', hopened, hcloser, rfl⟩ | ⟨m, y, l, n, z, l', hopened, hcloser, rfl⟩
  · rcases reads_opened htable hx hitem hopened with ⟨_, _, heq, _⟩ | ⟨_, hquiet⟩
    · cases heq
    · exact .of_quiet hquiet
  · have hquiet := silent_token htable htoken _ hcloser
    rcases reads_opened htable hx hitem hopened with ⟨_, _, heq, _, hreads | ⟨_, hreads⟩⟩ | ⟨⟨_, heq⟩, _⟩
    · exact (hreads.toLast.mono le_rfl (Nat.zero_le _)).append_quiet hquiet
    · exact hreads.append_quiet hquiet
    · cases heq
  · have hquiet := silent_token htable htoken _ hcloser
    rcases reads_opened htable hx hitem hopened with
      ⟨_, _, heq, _, hreads | ⟨hrejects, _⟩⟩ | ⟨⟨_, heq⟩, _⟩
    · cases heq
      have hlt : z.size + 1 ≤ y.size := (taken htable hcloser).2
      exact (hreads.mono le_rfl hlt).append_quiet hquiet
    · cases heq
      obtain ⟨_, hfail⟩ := failure_of_rejects hrejects hcloser
      cases hfail
    · cases heq

/-! ## Values -/

/-- What does not begin with a bracket that opens reads no values inside. -/
theorem silent_body (hhead : ∀ k : Container, x.chars.head? ≠ some k.opening) :
    Silent s (RuleName.value.body (ref table)) x := by
  have htoken {n : RuleName} (hn : n.IsToken) : Silent s (ref table n) x := silent_token htable hn
  have hobject := silent_whole htable (hhead .object)
  have harray := silent_whole htable (hhead .array)
  exact ((((((htoken (by decide)).orElse (htoken (by decide))).orElse hobject).orElse harray).orElse
    (htoken (by decide))).orElse (htoken (by decide))).orElse (htoken (by decide))

/-- No literal begins with a bracket. -/
theorem rejects_literal (hhead : x.chars.head? = some k.opening)
    (hn : n ∈ [.trueText, .falseText, .nullText]) : s.Rejects (ref table n) x.chars := by
  have hliteral {word : List Char} (hword : word ≠ []) (hne : word.head? ≠ some k.opening) :
      s.Rejects (.literal word) x.chars := by
    refine .literal (fun c hc d hd heq => hne ?_) hword
    rw [← hhead, Option.mem_def.1 hc, Option.mem_def.1 hd, heq]
  simp only [List.mem_cons, List.not_mem_nil, or_false] at hn
  rcases hn with rfl | rfl | rfl
  · exact rejects_ref htable .trueText (hliteral (by decide) (by cases k <;> decide))
  · exact rejects_ref htable .falseText (hliteral (by decide) (by cases k <;> decide))
  · exact rejects_ref htable .nullText (hliteral (by decide) (by cases k <;> decide))

/-- Once a value inside has failed, nothing else is tried that could read one: no literal begins with a
bracket, and objects and arrays begin with different ones. -/
theorem tries_body (hx : x.chars <:+ t.chars)
    (hitem : ∀ k, ∀ y : Text, y.chars <:+ t.chars → y.size < x.size → ReadsItem s table t k y) :
    Tries s t (RuleName.value.body (ref table)) x x.size := by
  have htoken {n : RuleName} (hn : n.IsToken) : Silent s (ref table n) x := silent_token htable hn
  have hscalar : Silent s (.orElse (ref table .string) (ref table .number)) x :=
    (htoken (by decide)).orElse (htoken (by decide))
  have hobject := tries_whole htable hx (hitem .object)
  have harray := tries_whole htable hx (hitem .array)
  by_cases hbracket : ∃ k : Container, x.chars.head? = some k.opening
  · obtain ⟨k, hhead⟩ := hbracket
    have hbrackets : Tries s t (.orElse (.orElse (.orElse (ref table .string) (ref table .number))
        (ref table .object)) (ref table .array)) x x.size := by
      cases k with
      | object =>
        have hne : x.chars.head? ≠ some Container.array.opening := by
          rw [hhead]
          decide
        exact (Tries.orElse_late hscalar hobject).orElse (silent_whole htable hne)
          (rejects_whole htable .array fun c hc heq => hne (heq ▸ hc))
      | array =>
        have hne : x.chars.head? ≠ some Container.object.opening := by
          rw [hhead]
          decide
        exact .orElse_late (hscalar.orElse (silent_whole htable hne)) harray
    have hliteral {n : RuleName} (hn : n ∈ [.trueText, .falseText, .nullText]) :
        s.Rejects (ref table n) x.chars := rejects_literal htable hhead hn
    exact ((hbrackets.orElse (htoken (by decide)) (hliteral (by simp))).orElse (htoken (by decide))
      (hliteral (by simp))).orElse (htoken (by decide)) (hliteral (by simp))
  · exact .of_silent (silent_body htable (not_exists.1 hbracket))

/-- A value is entered itself, on more than what it reads inside. -/
theorem reads_value (hx : x.chars <:+ t.chars)
    (hitem : ∀ k, ∀ y : Text, y.chars <:+ t.chars → y.size < x.size → ReadsItem s table t k y) :
    ReadsItem s table t .array x := by
  refine ⟨fun r hrun => ?_, fun hhead r hrun => ?_⟩
  · obtain ⟨o, l, hbody, rfl⟩ := hrun.rule_cases rfl (rule?_slot htable .value)
    have hbody := tries_body htable hx hitem _ hbody
    cases o with
    | success m y =>
      have hlt : y.size + 1 ≤ x.size := (taken htable hrun).2
      exact .run hbody hx hlt fun hok => by cases hok
    | failure y => exact .run hbody hx (Nat.zero_le _) fun _ => .inr rfl
  · obtain ⟨o, l, hbody, rfl⟩ := hrun.rule_cases rfl (rule?_slot htable .value)
    have hsilent : Silent s (RuleName.value.body (ref table)) x := by
      refine silent_body htable fun k => ?_
      rw [hhead]
      cases k <;> decide
    exact .run (.of_quiet (hsilent _ hbody)) hx le_rfl fun _ => .inl hhead

/-- A name and a colon leave a shorter end part. -/
theorem name_of_runs (hx : x.chars <:+ t.chars)
    (h : s.Runs (.andThen (ref table .string) (ref table .colon)) x ⟨.success m y, l⟩) :
    y.chars <:+ t.chars ∧ y.size < x.size := by
  rcases h.joins_cases (.andThen ..) with ⟨_, _, _, heq⟩ | ⟨_, _, _, _, _, _, _, heq⟩ |
    ⟨_, z, _, _, _, _, hstring, hcolon, heq⟩
  · cases heq
  · cases heq
  · cases heq
    exact ⟨suffix_of_runs htable (all_ref ..) hcolon
      (suffix_of_runs htable (all_ref ..) hstring hx),
      (taken htable hcolon).2.trans (taken htable hstring).2⟩

/-- A pair reads what its value reads, on less than the text. -/
theorem reads_pair (hx : x.chars <:+ t.chars)
    (hvalue : ∀ y : Text, y.chars <:+ t.chars → y.size < x.size → ReadsItem s table t .array y) :
    ReadsItem s table t .object x := by
  have hname : RuleName.pair.text ≠ "value" := by decide
  have hstring : Silent s (ref table .string) x := silent_token htable (by decide)
  refine ⟨.call htable hname (.andThen_late ?_ fun m y l hrun => ?_), fun hhead r hrun => ?_⟩
  · exact hstring.andThen fun m y l _ => silent_token htable (by decide)
  · obtain ⟨hy, hlt⟩ := name_of_runs htable hx hrun
    exact (hvalue y hy hlt).tries.mono (hlt.trans (Nat.lt_succ_self _))
  · have hrejects : s.Rejects (ref table .string) x.chars :=
      rejects_string htable fun c hc heq => by
        rw [Option.mem_def.1 hc, heq] at hhead
        exact absurd hhead (by decide)
    have hsilent : Silent s (ref table .pair) x :=
      .call htable hname (.breaks (.breaks hstring hrejects) (.andThen hrejects))
    exact .of_quiet (hsilent r hrun)

/-- Items are read so on all end parts of the text. -/
theorem reads_item (k : Container) (x : Text) (hx : x.chars <:+ t.chars) :
    ReadsItem s table t k x := by
  generalize hsize : x.size = size
  induction size using Nat.strong_induction_on generalizing k x with
  | _ size ih =>
    subst hsize
    have hitem (k : Container) (y : Text) (hy : y.chars <:+ t.chars) (hlt : y.size < x.size) :
        ReadsItem s table t k y := ih y.size hlt k y hy rfl
    cases k with
    | array => exact reads_value htable hx hitem
    | object => exact reads_pair htable hx (hitem .array)

/-! ## Documents -/

/-- A document in which a value has failed fails. -/
theorem tries_document : Tries s t (ref table .document) t (t.size + 1) := by
  have hblanks : (Parser.orElse (ref table .ws) .empty).All (Plain table) :=
    ⟨⟨trivial, trivial, nofun⟩, all_ref .., ⟨trivial, trivial, nofun⟩⟩
  have heof : Parser.eof.All (Plain table) := ⟨trivial, trivial, nofun⟩
  have hsize {p : Parser} (hp : p.All (Plain table)) (y : Text) (m : List Char) (z : Text) (l : Log)
      (hrun : s.Runs p y ⟨.success m z, l⟩) : z.size ≤ y.size :=
    hrun.size_le fun q hq => (everywhere_plain htable hp q hq).1.shrinking
  have hvalue : Tries s t (.optionalThen (ref table .ws) (ref table .value)) t (t.size + 1) := by
    refine .expand rfl (.andThen_late (silent_blanks htable) fun m y l hrun => ?_)
    have hy := suffix_of_runs htable hblanks hrun List.suffix_rfl
    have hle := hsize hblanks t m y l hrun
    exact (reads_item htable .array y hy).tries.mono (Nat.succ_le_succ hle)
  have hbody : Tries s t (.andThen (.thenOptional (.optionalThen (ref table .ws)
      (ref table .value)) (ref table .ws)) .eof) t (t.size + 1) := by
    refine .andThen (.expand rfl (hvalue.andThen (fun y => silent_blanks htable) (hsize hblanks)))
      (fun y r hrun => ?_) (hsize heof)
    rw [hrun.eq_direct rfl]
    exact .nil
  refine .call htable (by decide) fun r hrun => ?_
  rcases Runs.guarded_cases hrun with ⟨e, he, rfl⟩ | ⟨_, hrun⟩
  · obtain ⟨_, rfl⟩ := Option.ite_some_none_eq_some.1 he
    exact .of_quiet fun e he => by
      rw [List.mem_singleton.1 he]
      nofun
  · exact hbody r hrun

end

/-- Wherever the grammar of JSON is built, it is built, and its parser ends on every text. The texts on
which the rule for values is entered get shorter and shorter, so there is at most one entry for each
byte, and one more. Where a run of that rule fails on a text that does not start with the closing
bracket of an array, it is not entered again, and the text is handed back in failure. -/
theorem value_read_once {σ : Type} (site : Site σ) :
    ∃ p site', grammar site = (.ok p, site') ∧
      ∀ t, ∃ r, site'.store.run p t = some r ∧
        (entered "value" r.log).Pairwise (fun m n => n < m) ∧
        (entered "value" r.log).length ≤ t.size + 1 ∧
        ∀ front consumed back, r.log = front ++ .exitRule "value" false consumed :: back →
          ∃ x : Text, x.chars <:+ t.chars ∧ (pending "value" front).head? = some x.size ∧
            (x.chars.head? = some ']' ∨ entered "value" back = [] ∧ r.outcome = .failure t) := by
  refine ⟨entryIn site.store, _, grammar_eq site, fun t => ?_⟩
  have htable := table_builtStore site.store
  obtain ⟨⟨o, l⟩, hr, hrun⟩ := exists_run_entryIn site.store t
  have hreads := tries_document htable (t := t) _ hrun
  refine ⟨_, hr, ?_⟩
  cases o with
  | success m y =>
    have hreads : Reads t false (t.size + 1) (y.size + 1) l := hreads
    refine ⟨hreads.decreasing, hreads.length_le, fun front consumed back heq => ?_⟩
    obtain ⟨x, hx, hsize, hclosing | ⟨hlast, _⟩⟩ := hreads.fails front consumed back heq
    · exact ⟨x, hx, hsize [], .inl hclosing⟩
    · cases hlast
  | failure y =>
    have hreads : Reads t true (t.size + 1) 0 l := hreads
    have hplain := everywhere_plain htable (all_ref _ .document)
    obtain rfl : y = t := hrun.failure_eq (fun q hq => (hplain q hq).1) rfl
    refine ⟨hreads.decreasing, hreads.length_le, fun front consumed back heq => ?_⟩
    obtain ⟨x, hx, hsize, hfail⟩ := hreads.fails front consumed back heq
    exact ⟨x, hx, hsize [], hfail.imp_right fun ⟨_, hback⟩ => ⟨hback, rfl⟩⟩

end Descent.Json
