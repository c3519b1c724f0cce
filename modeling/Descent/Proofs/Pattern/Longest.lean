import Descent.Proofs.Pattern.Anchor
import Descent.Proofs.Pattern.Choosing
import Descent.Proofs.Text.Shown

/-!
# Longer matches first

A pattern made into a parser succeeds where some start of the text matches, and takes such a start
(`run_pattern_matches`). It need not be the longest: the first of two alternatives is taken even if
the second could take more. Where alternatives come in order of their widths, repetitions are greedy
and repeat something of one width, and of two parts in a row one has one width only or the second can
take nothing from the first, the places where a match can end are listed longest first
(`Node.falling_ends`), and an engine that reports the first of them takes the longest match.
-/

namespace Descent.Pattern

/-- No place stands before a later one of the list. -/
def Falling (cs : List Cursor) : Prop := cs.Pairwise fun d e => e.offset ≤ d.offset

variable {cs : List Cursor} {c d e : Cursor} {n : ℕ}

/-- The first place of the list is the last in the text. -/
theorem Falling.offset_le_head (h : Falling cs) (hd : cs.head? = some d) (he : e ∈ cs) :
    e.offset ≤ d.offset := by
  cases cs with
  | nil => cases he
  | cons c cs =>
    cases hd
    rcases List.mem_cons.1 he with rfl | he
    · exact Nat.le_refl _
    · exact (List.pairwise_cons.1 h).1 e he

theorem Falling.distinct (h : Falling cs) : Falling (Cursor.distinct cs) :=
  List.Pairwise.sublist (Cursor.distinct_sublist cs) h

/-- Places that are apart and have the same offset are at most one. -/
theorem length_le_one (hapart : Cursor.Apart cs) (h : ∀ e ∈ cs, e.offset = n) : cs.length ≤ 1 := by
  rcases cs with _ | ⟨d, _ | ⟨d', cs⟩⟩
  · exact Nat.zero_le 1
  · exact Nat.le_refl 1
  · have hne := (List.pairwise_cons.1 hapart).1 d' List.mem_cons_self
    rw [h d List.mem_cons_self, h d' (List.mem_cons_of_mem _ List.mem_cons_self)] at hne
    exact absurd rfl hne

theorem eq_nil_or_singleton (h : cs.length ≤ 1) : cs = [] ∨ ∃ d, cs = [d] := by
  rcases cs with _ | ⟨d, _ | ⟨d', cs⟩⟩
  · exact .inl rfl
  · exact .inr ⟨d, rfl⟩
  · simp at h

/-- From at most one place on, the places fall as they do from there. -/
theorem falling_flatMap {f : Cursor → List Cursor} (h : cs.length ≤ 1) (hf : ∀ d, Falling (f d)) :
    Falling (cs.flatMap f) := by
  rcases eq_nil_or_singleton h with rfl | ⟨d, rfl⟩
  · exact .nil
  · simpa using hf d

/-! ## Rounds of one width -/

section Rounds

variable {related : Cursor → Cursor → Prop} {step : Cursor → List Cursor} {width : ℕ}

/-- In so many rounds, each at most this wide, a search goes at most so far. -/
theorem rounds_offset_le (h : ∀ c e, related c e → e.offset ≤ c.offset + width)
    (hrounds : Rounds related n c e) : e.offset ≤ c.offset + n * width := by
  induction n generalizing c with
  | zero => simp [show e = c from hrounds]
  | succ n ih =>
    obtain ⟨d, hd, he⟩ := hrounds
    have hfirst := h c d hd
    have hrest := ih he
    rw [Nat.succ_mul]
    omega

/-- In so many rounds of one width it goes just so far. -/
theorem rounds_offset_eq (h : ∀ c e, related c e → e.offset = c.offset + width)
    (hrounds : Rounds related n c e) : e.offset = c.offset + n * width :=
  Nat.le_antisymm (rounds_offset_le (fun c e he => (h c e he).le) hrounds)
    (rounds_offset_ge (fun c e he => (h c e he).ge) hrounds)

/-- Where each round leads to one place at most, so do several. -/
theorem length_times_le (h : ∀ c, (step c).length ≤ 1) (n : ℕ) (c : Cursor) :
    (Node.times step n c).length ≤ 1 := by
  induction n generalizing c with
  | zero => exact Nat.le_refl 1
  | succ n ih =>
    rw [Node.times]
    rcases eq_nil_or_singleton (h c) with hd | ⟨d, hd⟩
    · simp [hd]
    · simpa [hd] using ih d

/-- Greedy rounds go on as far as they can before they stop anywhere. -/
theorem falling_upTo (hahead : ∀ c, ∀ e ∈ step c, c.Ahead e) (h : ∀ c, (step c).length ≤ 1) (n : ℕ)
    (c : Cursor) : Falling (Node.upTo step true n c) := by
  induction n generalizing c with
  | zero => exact List.pairwise_singleton ..
  | succ n ih =>
    refine List.pairwise_append.2 ⟨falling_flatMap (h c) ih, List.pairwise_singleton .., ?_⟩
    intro e he d hd
    obtain rfl := List.mem_singleton.1 hd
    exact (Node.ahead_flatMap hahead (Node.ahead_upTo hahead) d e he).offset_le

end Rounds

namespace Node

/-- How many characters a match takes at most, if there is such a number. -/
def maxWidth? : Node → Option ℕ
  | empty | look _ => some 0
  | set _ => some 1
  | seq a b => do return (← a.maxWidth?) + (← b.maxWidth?)
  | alt a b => do return max (← a.maxWidth?) (← b.maxWidth?)
  | loop least most _ body =>
    match body.maxWidth?, most with
    | some 0, _ => some 0
    | some width, some most => some (max least most * width)
    | _, _ => none

/-- All matches take the same number of characters. -/
def isFixed (node : Node) : Bool := node.maxWidth? == some node.minWidth

/-- The characters with which a match that takes any can begin, and perhaps others. -/
def openings : Node → List CodeRange
  | empty | look _ => []
  | set s => s.ranges
  | seq a b => a.openings ++ if a.minWidth = 0 then b.openings else []
  | alt a b => a.openings ++ b.openings
  | loop _ _ _ body => body.openings

/-- The first pattern is a repetition of something of one width, and wherever this can go on, the
second takes nothing. -/
def stopsBefore (a b : Node) : Bool :=
  match a with
  | loop _ _ _ body => body.isFixed && body.openings.all fun r => b.openings.all fun r' =>
      r.last < r'.first || r'.last < r.first
  | _ => false

/-- Longer matches are preferred: alternatives come in order of their widths, repetitions are greedy
and repeat something of one width, and of two parts in a row one has one width only, or the first is a
repetition that the second cannot take anything from. Where all matches take the same number of
characters, there is nothing to prefer. -/
def prefersLonger : Node → Bool
  | empty | look _ | set _ => true
  | seq a b =>
    (seq a b).isFixed ||
      a.prefersLonger && b.prefersLonger && (a.isFixed || b.isFixed || a.stopsBefore b)
  | alt a b =>
    (alt a b).isFixed ||
      a.prefersLonger && b.prefersLonger && b.maxWidth?.any fun width => width ≤ a.minWidth
  | loop least most greedy body => (loop least most greedy body).isFixed || greedy && body.isFixed

theorem le_maxWidth {node : Node} {width : ℕ} (h : node.Matches c e)
    (hwidth : node.maxWidth? = some width) : e.offset ≤ c.offset + width := by
  induction node generalizing c e width with
  | empty => exact (show e = c from h) ▸ Nat.le_add_right ..
  | set s =>
    cases hwidth
    exact (Cursor.takeIn_eq_some h).2.le
  | look l => exact h.2 ▸ Nat.le_add_right ..
  | seq a b iha ihb =>
    obtain ⟨d, hd, he⟩ := h
    simp only [maxWidth?, Option.bind_eq_bind, Option.bind_eq_some_iff] at hwidth
    obtain ⟨v, hv, w, hw, hsum⟩ := hwidth
    cases hsum
    have hfirst := iha hd hv
    have hsecond := ihb he hw
    omega
  | alt a b iha ihb =>
    simp only [maxWidth?, Option.bind_eq_bind, Option.bind_eq_some_iff] at hwidth
    obtain ⟨v, hv, w, hw, hmax⟩ := hwidth
    cases hmax
    rcases h with h | h
    · have hle := iha h hv
      omega
    · have hle := ihb h hw
      omega
  | loop least most greedy body ih =>
    obtain ⟨n, ⟨-, hmost⟩, hrounds⟩ := h
    unfold maxWidth? at hwidth
    split at hwidth
    next hbody =>
      cases hwidth
      have hle := rounds_offset_le (fun c e h => ih h hbody) hrounds
      omega
    next v most _ hbody =>
      cases hwidth
      have hle := rounds_offset_le (fun c e h => ih h hbody) hrounds
      have hmul := Nat.mul_le_mul_right v (hmost most rfl)
      omega
    · cases hwidth

/-- Where all matches take the same number of characters, a match takes that many. -/
theorem offset_eq_of_isFixed {node : Node} (h : node.isFixed = true) (hmatches : node.Matches c e) :
    e.offset = c.offset + node.minWidth := by
  have hmin := minWidth_le hmatches
  have hmax := le_maxWidth hmatches (by simpa [isFixed] using h)
  omega

theorem apart_ends (node : Node) (c : Cursor) : Cursor.Apart (node.ends c) := by
  cases node with
  | empty => exact List.pairwise_singleton ..
  | set s =>
    rw [ends]
    cases c.takeIn s with
    | none => exact .nil
    | some d => exact List.pairwise_singleton ..
  | look l =>
    rw [ends]
    split
    · exact List.pairwise_singleton ..
    · exact .nil
  | seq | alt | loop => exact Cursor.apart_distinct _

/-- Where all matches take the same number of characters there is one place at most. -/
theorem length_ends_le {node : Node} (h : node.isFixed = true) (c : Cursor) :
    (node.ends c).length ≤ 1 :=
  length_le_one (apart_ends node c) fun _ he => offset_eq_of_isFixed h ((mem_ends_iff node).1 he)

theorem falling_ends_of_isFixed {node : Node} (h : node.isFixed = true) (c : Cursor) :
    Falling (node.ends c) := by
  have hfalling := falling_flatMap (length_ends_le h c) fun d => List.pairwise_singleton _ d
  simpa using hfalling

/-- A match that takes characters begins with one of the openings. -/
theorem holds_openings {node : Node} (h : node.Matches c e) (hne : e.offset ≠ c.offset) :
    ∃ x ∈ c.rest.head?, CharSet.Holds node.openings x.toNat := by
  induction node generalizing c e with
  | empty => exact absurd (congrArg Cursor.offset (show e = c from h)) hne
  | look l => exact absurd (congrArg Cursor.offset h.2) hne
  | set s =>
    obtain ⟨before, rest, offset⟩ := c
    cases rest with
    | nil => cases h
    | cons x rest =>
      simp only [Matches, Cursor.takeIn] at h
      split at h
      next hcontains =>
        exact ⟨x, rfl, CharSet.holds_of_memberOf hcontains⟩
      · cases h
  | seq a b iha ihb =>
    obtain ⟨d, hd, he⟩ := h
    by_cases hstays : d.offset = c.offset
    · obtain rfl := hd.ahead.eq_of_offset (.here c) hstays
      have hmin := minWidth_le hd
      obtain ⟨x, hx, r, hr, hcontains⟩ := ihb he hne
      refine ⟨x, hx, r, List.mem_append_right _ ?_, hcontains⟩
      rwa [if_pos (by omega)]
    · obtain ⟨x, hx, r, hr, hcontains⟩ := iha hd hstays
      exact ⟨x, hx, r, List.mem_append_left _ hr, hcontains⟩
  | alt a b iha ihb =>
    rcases h with h | h
    · obtain ⟨x, hx, r, hr, hcontains⟩ := iha h hne
      exact ⟨x, hx, r, List.mem_append_left _ hr, hcontains⟩
    · obtain ⟨x, hx, r, hr, hcontains⟩ := ihb h hne
      exact ⟨x, hx, r, List.mem_append_right _ hr, hcontains⟩
  | loop least most greedy body ih =>
    obtain ⟨n, -, hrounds⟩ := h
    -- The first round that takes anything begins where the repetition does.
    induction n generalizing c with
    | zero => exact absurd (congrArg Cursor.offset (show e = c from hrounds)) hne
    | succ n ihn =>
      obtain ⟨d, hd, he⟩ := hrounds
      by_cases hstays : d.offset = c.offset
      · obtain rfl := hd.ahead.eq_of_offset (.here c) hstays
        exact ihn hne he
      · exact ih hd hstays

/-- Where a repetition of something of one width can stop and can go on as well, what cannot take
anything from it takes nothing. -/
theorem offset_eq_of_stopsBefore {a b : Node} {e' y : Cursor} (hstops : a.stopsBefore b = true)
    (he : a.Matches c e) (he' : a.Matches c e') (hlt : e.offset < e'.offset) (hy : b.Matches e y) :
    y.offset = e.offset := by
  cases a with
  | loop least most greedy body =>
    simp only [stopsBefore, Bool.and_eq_true, List.all_eq_true, Bool.or_eq_true,
      decide_eq_true_eq] at hstops
    obtain ⟨hfixed, hapart⟩ := hstops
    have hwidth (c e : Cursor) : body.Matches c e → e.offset = c.offset + body.minWidth :=
      offset_eq_of_isFixed hfixed
    have hahead (c e : Cursor) : body.Matches c e → c.Ahead e := Matches.ahead
    obtain ⟨n, -, hn⟩ := he
    obtain ⟨n', -, hn'⟩ := he'
    have hoffset := rounds_offset_eq hwidth hn
    have hoffset' := rounds_offset_eq hwidth hn'
    obtain ⟨more, rfl⟩ : ∃ more, n' = n + (more + 1) := by
      by_contra hnone
      have hle : n' ≤ n := by
        by_contra hlt
        exact hnone ⟨n' - n - 1, by omega⟩
      have hmul := Nat.mul_le_mul_right body.minWidth hle
      omega
    -- The longer match comes by the end of the shorter one, and a round goes on from there.
    obtain ⟨d, hd, next, hnext, -⟩ := rounds_add.1 hn'
    have hsame : d.offset = e.offset := (rounds_offset_eq hwidth hd).trans hoffset.symm
    obtain rfl := (ahead_of_rounds hahead hd).eq_of_offset (ahead_of_rounds hahead hn) hsame
    have hgoes : next.offset ≠ d.offset := by
      have hpos : body.minWidth ≠ 0 := by
        rintro hzero
        rw [hzero, Nat.mul_zero] at hoffset hoffset'
        omega
      have hstep := hwidth d next hnext
      omega
    obtain ⟨x, hx, r, hr, hholds⟩ := holds_openings hnext hgoes
    by_contra hne
    obtain ⟨x', hx', r', hr', hholds'⟩ := holds_openings hy hne
    obtain rfl : x = x' := Option.some.inj (hx.symm.trans hx')
    have hdisjoint := hapart r hr r' hr'
    simp only [CodeRange.contains, Bool.and_eq_true, decide_eq_true_eq] at hholds hholds'
    omega
  | _ => cases hstops

/-- The places where a match can end are listed longest first. -/
theorem falling_ends {node : Node} (h : node.prefersLonger = true) (c : Cursor) :
    Falling (node.ends c) := by
  induction node generalizing c with
  | empty => exact falling_ends_of_isFixed rfl c
  | set s => exact falling_ends_of_isFixed rfl c
  | look l => exact falling_ends_of_isFixed rfl c
  | seq a b iha ihb =>
    simp only [prefersLonger, Bool.or_eq_true, Bool.and_eq_true] at h
    rcases h with hfixed | ⟨⟨ha, hb⟩, (hfixed | hfixed) | hstops⟩
    · exact falling_ends_of_isFixed hfixed c
    · exact (falling_flatMap (length_ends_le hfixed c) (ihb hb)).distinct
    · refine Falling.distinct (List.pairwise_flatMap.2 ⟨fun d _ => ihb hb d, ?_⟩)
      refine (iha ha c).imp fun {d d'} hle x hx y hy => ?_
      rw [offset_eq_of_isFixed hfixed ((mem_ends_iff b).1 hx),
        offset_eq_of_isFixed hfixed ((mem_ends_iff b).1 hy)]
      omega
    · refine Falling.distinct (List.pairwise_flatMap.2 ⟨fun d _ => ihb hb d, ?_⟩)
      refine List.Pairwise.imp_of_mem (fun {d d'} hd hd' ⟨hle, hne⟩ x hx y hy => ?_)
        ((iha ha c).and (apart_ends a c))
      have hlt : d'.offset < d.offset := by omega
      have hnothing := offset_eq_of_stopsBefore hstops ((mem_ends_iff a).1 hd')
        ((mem_ends_iff a).1 hd) hlt ((mem_ends_iff b).1 hy)
      have hahead := (ahead_of_mem_ends hx).offset_le
      omega
  | alt a b iha ihb =>
    simp only [prefersLonger, Bool.or_eq_true, Bool.and_eq_true, Option.any_eq_true,
      decide_eq_true_eq] at h
    rcases h with hfixed | ⟨⟨ha, hb⟩, width, hwidth, hle⟩
    · exact falling_ends_of_isFixed hfixed c
    · refine Falling.distinct (List.pairwise_append.2 ⟨iha ha c, ihb hb c, fun x hx y hy => ?_⟩)
      have hmin := minWidth_le ((mem_ends_iff a).1 hx)
      have hmax := le_maxWidth ((mem_ends_iff b).1 hy) hwidth
      omega
  | loop least most greedy body ih =>
    simp only [prefersLonger, Bool.or_eq_true, Bool.and_eq_true] at h
    rcases h with hfixed | ⟨rfl, hbody⟩
    · exact falling_ends_of_isFixed hfixed c
    · have hone := length_ends_le hbody
      refine (falling_flatMap (length_times_le hone least c) fun d => ?_).distinct
      cases most with
      | some most => exact falling_upTo (fun _ _ => ahead_of_mem_ends) hone _ d
      | none => exact falling_upTo (fun _ _ => ahead_of_mem_ends) hone _ d

/-- One letter and then another are taken as far as they go; the shorter alternative comes first. -/
example : (Part.read? PropertyQuery.set? "a+b*".toList).map (·.node.prefersLonger) = some true ∧
    (Part.read? PropertyQuery.set? "a|ab".toList).map (·.node.prefersLonger) = some false := ⟨rfl, rfl⟩

end Node

/-! ## The match of a parser -/

/-- A parser made from a pattern succeeds just where some first characters of the text match the
pattern; it takes such characters, leaves the rest, and hands back the text anywhere else. If the engine
takes the match that the pattern prefers, and the pattern prefers longer matches, no more of the first
characters match it. -/
theorem run_pattern_matches {engine : Engine} {source : String} {node : Node} {find : Search}
    {pattern : Pattern} (hengine : engine.FindsMatches)
    (hread : engine.read? source.toList = some (node, find))
    (hpattern : ofSource? engine source = some pattern) (s : Store) (depth : ℕ) (t : Text) :
    ∃ o, s.step depth (.pattern pattern) t = some ⟨o, []⟩ ∧
      (o.ok = true ↔ ∃ n, node.MatchesFirst t.chars n) ∧ (o.ok = false → o = .failure t) ∧
      ∀ m x, o = .success m x → m ++ x.chars = t.chars ∧ node.MatchesFirst t.chars m.length ∧
        (engine.PrefersFirst (anchored source.toList) node.tied → node.prefersLonger = true →
          ∀ n, node.MatchesFirst t.chars n → n ≤ m.length) := by
  obtain ⟨part, hpart, -, -, rfl⟩ := engine_read?_eq_some_iff.1 hread
  obtain ⟨part', hpart', -, -, find', hfind, rfl⟩ :=
    (ofSource?_eq_some_iff (not_strays hread)).1 hpattern
  cases hpart.symm.trans hpart'
  refine ⟨Step.found find' t, Store.step_of_direct rfl, ?_⟩
  rcases found_tied hengine hfind t with ⟨hfound, hfails⟩ | ⟨n, hfound, hmatches, hpreferred⟩
  · rw [hfound]
    exact ⟨iff_of_false Bool.false_ne_true (not_exists.2 hfails), fun _ => rfl, nofun⟩
  · rw [hfound]
    refine ⟨iff_of_true rfl ⟨n, hmatches⟩, nofun, ?_⟩
    rintro m x ⟨⟩
    rw [List.length_take, Nat.min_eq_left hmatches.le_length]
    refine ⟨by simp, hmatches, fun hprefers hlonger n' ⟨e', he', hn'⟩ => ?_⟩
    obtain ⟨e, hhead, rfl⟩ := Option.map_eq_some_iff.1 (hpreferred hprefers)
    rw [← hn']
    exact (Node.falling_ends hlonger _).offset_le_head hhead ((Node.mem_ends_iff _).2 he')

/-- A repetition takes as many letters as there are. -/
theorem run_pattern_matches_letters : ∃ node find pattern,
    Engine.machine.FindsMatches ∧ Engine.machine.read? "fo+".toList = some (node, find) ∧
    ofSource? .machine "fo+" = some pattern ∧
    (∀ (s : Store) (depth : ℕ), s.step depth (.pattern pattern) (.ofString "food") =
      some ⟨.success "foo".toList (.ofString "d"), []⟩) ∧
    ∀ n, node.MatchesFirst "food".toList n → n ≤ 3 := by
  obtain ⟨pattern, hpattern⟩ : ∃ pattern, ofSource? .machine "fo+" = some pattern := ⟨_, rfl⟩
  have hrun (s : Store) (depth : ℕ) : s.step depth (.pattern pattern) (.ofString "food") =
      some ⟨.success "foo".toList (.ofString "d"), []⟩ := by
    cases hpattern
    rw [Store.step_of_direct rfl]
    rfl
  refine ⟨_, _, pattern, Engine.machine_findsMatches, rfl, hpattern, hrun, ?_⟩
  obtain ⟨o, hstep, -, -, hsuccess⟩ :=
    run_pattern_matches Engine.machine_findsMatches rfl hpattern ⟨#[]⟩ 0 (.ofString "food")
  rw [hrun] at hstep
  cases hstep
  exact (hsuccess _ _ rfl).2.2 (Engine.machine_prefersFirst rfl _) rfl

/-- The first of two alternatives is taken, although the second takes more. -/
theorem shorter_match_taken : ∃ node find pattern,
    Engine.machine.read? "a|ab".toList = some (node, find) ∧
    ofSource? .machine "a|ab" = some pattern ∧ node.MatchesFirst "ab".toList 2 ∧
    ∀ (s : Store) (depth : ℕ), s.step depth (.pattern pattern) (.ofString "ab") =
      some ⟨.success ['a'] (.ofString "b"), []⟩ := by
  refine ⟨_, _, _, rfl, rfl, ⟨_, .inr ⟨_, rfl, rfl⟩, rfl⟩, fun s depth => ?_⟩
  rw [Store.step_of_direct rfl]
  rfl

end Descent.Pattern
