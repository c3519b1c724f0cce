import Descent.Proofs.Json.Exactness
import Descent.Proofs.Running

/-!
# How deep the rules of JSON call each other

The scan for nesting runs over the whole text before anything is parsed, and knows nothing of the
grammar. Still it bounds how deep the rules call each other, on texts that are no JSON as well
(`grammar_bounded`): whatever a rule has matched is a word of its language, so at every place that is
reached the scan stands outside strings, as many brackets deep as there are containers open. A value
inside all brackets that are allowed can open no other, and up to four rules run for each level.
-/

namespace Descent.Json

open Store Computability

variable {s : Store} {table k k' a a' b b' : Nat} {t x : Text} {m : List Char}
  {pre post : Text → Prop}

/-! ## Room for brackets -/

namespace Nesting

/-- The greatest depth that is known at the start takes no part in the scan. -/
theorem advance_raise (n : Nesting) (least : Nat) (c : Char) :
    advance { n with deepest := max n.deepest least } c =
      { advance n c with deepest := max (advance n c).deepest least } := by
  have hmax : max (max n.deepest least) (n.depth + 1) = max (max n.deepest (n.depth + 1)) least := by
    omega
  unfold advance
  grind

/-- The greatest depth that is known at the start is only the least that can be found. -/
theorem foldl_raise (chars : List Char) (n : Nesting) (least : Nat) :
    chars.foldl advance { n with deepest := max n.deepest least } =
      { chars.foldl advance n with deepest := max (chars.foldl advance n).deepest least } := by
  induction chars generalizing n with
  | nil => rfl
  | cons c chars ih => rw [List.foldl_cons, List.foldl_cons, advance_raise, ih]

/-- The greatest depth is never less than what it was. -/
theorem le_deepest_foldl (chars : List Char) (n : Nesting) :
    n.deepest ≤ (chars.foldl advance n).deepest := by
  have hraise := congrArg deepest (foldl_raise chars n n.deepest)
  rw [Nat.max_self] at hraise
  change (chars.foldl advance n).deepest = max (chars.foldl advance n).deepest n.deepest at hraise
  omega

end Nesting

/-- Read inside `k` brackets and outside strings, the text nests no deeper than is allowed. -/
def HasRoom (k : Nat) (t : Text) : Prop :=
  (t.chars.foldl Nesting.advance ⟨k, k, false, false⟩).deepest ≤ maxDepth

/-- No more brackets are open than are allowed. -/
theorem HasRoom.le (h : HasRoom k t) : k ≤ maxDepth :=
  (Nesting.le_deepest_foldl t.chars ⟨k, k, false, false⟩).trans h

/-- All words of a language lead the scan from inside `k` brackets to inside `k'` brackets. -/
def Leads (k k' : Nat) (words : Language Char) : Prop :=
  ∀ m ∈ words, ∃ deepest, k' ≤ deepest ∧
    m.foldl Nesting.advance ⟨k, k, false, false⟩ = ⟨k', deepest, false, false⟩

/-- What is left after such a word has room inside as many brackets. -/
theorem HasRoom.rest {words : Language Char} (h : HasRoom k t) (hwords : Leads k k' words)
    (hm : m ∈ words) (ht : m ++ x.chars = t.chars) : HasRoom k' x := by
  obtain ⟨deepest, hdeepest, hscan⟩ := hwords m hm
  have hraise := Nesting.foldl_raise x.chars ⟨k', k', false, false⟩ deepest
  rw [Nat.max_eq_right hdeepest] at hraise
  have hall : (t.chars.foldl Nesting.advance ⟨k, k, false, false⟩).deepest ≤ maxDepth := h
  rw [← ht, List.foldl_append, hscan, hraise] at hall
  exact (Nat.le_max_left _ _).trans hall

/-- Words that leave everything as it was. -/
theorem Leads.of_stays {words : Language Char}
    (h : words ≤ Nesting.stays ⟨k, k, false, false⟩) : Leads k k words :=
  fun _ hm => ⟨k, le_rfl, h hm⟩

/-- Values, items and lists of items close what they open. -/
theorem leads_values (k : Nat) (symbol : Standard.Symbol) : Leads k k (values symbol) := by
  rintro m ⟨d, hm⟩
  exact ⟨_, le_max_left k (k + d), Nesting.foldl_derives hm le_rfl⟩

/-- Strings and blanks, commas and colons close what they open. -/
theorem leads_token {n : RuleName} (hn : n ∈ [.ws, .comma, .colon, .string]) :
    Leads k k n.words := by
  simp only [List.mem_cons, List.not_mem_nil, or_false] at hn
  rcases hn with rfl | rfl | rfl | rfl
  · exact .of_stays (le_sup_left.trans (words_ws_add_one.le.trans Nesting.ws_le_stays))
  · exact .of_stays (Nesting.structural_le_stays rfl)
  · exact .of_stays (Nesting.structural_le_stays rfl)
  · exact .of_stays Nesting.string_le_stays

/-- A bracket that opens leads one deeper. -/
theorem leads_opening (k : Nat) (c : Standard.Container) :
    Leads k (k + 1) (Standard.structural c.opening) :=
  fun _ hm => ⟨_, le_max_right k (k + 1), Nesting.foldl_opening hm⟩

/-- Where a rule has succeeded, it has led the scan as all its words do. -/
theorem hasRoom_of_runs (htable : s.table table = .ready (rules table)) {n : RuleName} {l : Log}
    (hwords : Leads k k' n.words) (ht : HasRoom k t)
    (hrun : s.Runs (ref table n) t ⟨.success m x, l⟩) : HasRoom k' x := by
  have hplain := everywhere_plain htable (all_ref table n)
  have hconserves : m ++ x.chars = t.chars := hrun.conserves fun q hq => (hplain q hq).2.1
  exact ht.rest hwords (mem_words_of_runs htable hrun) hconserves

/-! ## Rules that run at the same time -/

/-- At most so many rules run, and among them at most so many that read a value. -/
def Within (height values : Nat) (inner : List String) : Prop :=
  inner.length ≤ height ∧ inner.count "value" ≤ values

/-- Larger bounds are bounds. -/
theorem Within.mono {inner : List String} (h : Within a b inner) (ha : a ≤ a') (hb : b ≤ b') :
    Within a' b' inner :=
  ⟨h.1.trans ha, h.2.trans hb⟩

/-- Nothing runs at all. -/
theorem within_nil (height values : Nat) : Within height values [] :=
  ⟨Nat.zero_le _, Nat.zero_le _⟩

/-- Larger bounds hold for a parser as well, on fewer texts, whatever it leaves. -/
theorem tame_mono {pre' : Text → Prop} {p : Parser} (h : s.Tame (Within a b) pre p post)
    (ha : a ≤ a') (hb : b ≤ b') (hpre : ∀ t, pre' t → pre t) :
    s.Tame (Within a' b') pre' p fun _ => True :=
  h.imp (fun _ hinner => hinner.mono ha hb) hpre fun _ _ => trivial

/-- A call adds one rule to those that run in the body, and maybe one that reads a value. -/
theorem tame_ref (htable : s.table table = .ready (rules table)) {n : RuleName}
    (hbody : s.Tame (Within a b) pre (n.body (ref table)) post) (ha : a + 1 ≤ a')
    (hb : b + [n.text].count "value" ≤ b') : s.Tame (Within a' b') pre (ref table n) post := by
  refine .call rfl (rule?_slot htable n) (within_nil a' b') ?_
  refine hbody.imp (fun inner hinner => ?_) (fun _ h => h) fun _ h => h
  obtain ⟨hlength, hcount⟩ := hinner
  refine ⟨?_, ?_⟩
  · rw [List.length_append, List.length_singleton]
    omega
  · rw [List.count_append]
    change inner.count "value" + [n.text].count "value" ≤ b'
    omega

/-- A rule leaves texts with room, if its words lead there. -/
theorem tame_leads (htable : s.table table = .ready (rules table)) {n : RuleName}
    (hwords : Leads k k' n.words)
    (h : s.Tame (Within a b) (HasRoom k) (ref table n) fun _ => True) :
    s.Tame (Within a b) (HasRoom k) (ref table n) (HasRoom k') :=
  fun t r ht hrun => ⟨(h t r ht hrun).1, fun m x hx => by
    obtain ⟨o, l⟩ := r
    cases hx
    exact hasRoom_of_runs htable hwords ht hrun⟩

/-- How many rules can run in a call of a token. The rules that read values, or call rules that do,
are no tokens. -/
def RuleName.height : RuleName → Nat
  | ws | quote | trueText | falseText | nullText | hexdigit | unescaped | digits => 1
  | bopen | bclose | sopen | sclose | colon | comma | unicode | integer | fraction | exponent => 2
  | escaped | number => 3
  | stringChar => 4
  | string => 5
  | elements | array | pair | members | object | value | document => 0

/-- The rule is a token. -/
abbrev RuleName.IsToken (n : RuleName) : Prop := 0 < n.height

/-- A parser that by itself calls nothing but a token of less height. -/
structure LowerToken (table : Nat) (n : RuleName) (q : Parser) : Prop where
  traceable : q.Traceable
  leaf : q.children = [] → q.direct?.isSome ∨
    ∃ n' : RuleName, q = ref table n' ∧ n'.IsToken ∧ n'.height < n.height

/-- The bodies of tokens are put together from tokens of less height. -/
theorem all_lowerToken (table : Nat) {n : RuleName} (hn : n.IsToken) :
    (n.body (ref table)).All (LowerToken table n) := by
  have hcall (n' : RuleName) (hn' : n'.IsToken) (hlt : n'.height < n.height) :
      (ref table n').All (LowerToken table n) :=
    ⟨trivial, fun _ => .inr ⟨n', rfl, hn', hlt⟩⟩
  cases n with
  | elements | array | pair | members | object | value | document => exact absurd hn (by decide)
  | _ =>
    simp only [RuleName.body, Parser.or_eq, Parser.shiftRight_eq, Parser.All]
    and_intros
    all_goals first
      | exact hcall _ (by decide) (by decide)
      | exact ⟨trivial, by simp [Parser.children, Parser.direct?]⟩

/-- A token runs no more rules than its height. -/
theorem tame_token (htable : s.table table = .ready (rules table)) {n : RuleName} (hn : n.IsToken) :
    s.Tame (Within n.height 0) (fun _ => True) (ref table n) fun _ => True := by
  generalize hheight : n.height = height
  induction height using Nat.strong_induction_on generalizing n with
  | _ height ih =>
    subst hheight
    have hcount : [n.text].count "value" = 0 := by
      cases n with
      | value => exact absurd hn (by decide)
      | _ => decide
    refine tame_ref htable (a := n.height - 1) (b := 0) ?_ (by omega) (by omega)
    refine .of_leaves (within_nil _ _) ((all_lowerToken table hn).imp fun q hq => ?_)
    refine ⟨hq.traceable, fun hchildren => ?_⟩
    rcases hq.leaf hchildren with hdirect | ⟨n', rfl, hn', hlt⟩
    · obtain ⟨f, hf⟩ := Option.isSome_iff_exists.1 hdirect
      exact .direct hf (within_nil _ _) fun _ _ _ _ _ => trivial
    · exact tame_mono (ih _ hlt hn' rfl) (by omega) le_rfl fun _ _ => trivial

/-- A token whose words lead somewhere leaves texts with room there. -/
theorem tame_token_leads (htable : s.table table = .ready (rules table)) {n : RuleName}
    (hn : n.IsToken) (ha : n.height ≤ a) (hwords : Leads k k' n.words) :
    s.Tame (Within a b) (HasRoom k) (ref table n) (HasRoom k') :=
  tame_leads htable hwords
    (tame_mono (tame_token htable hn) ha (Nat.zero_le b) fun _ _ => trivial)

/-! ## Values inside each other -/

section

variable (htable : s.table table = .ready (rules table))
include htable

/-- Elements of an array run one rule more than a value. -/
theorem tame_elements (ha : 2 ≤ a)
    (hvalue : s.Tame (Within a b) (HasRoom k) (ref table .value) (HasRoom k)) :
    s.Tame (Within (a + 1) b) (HasRoom k) (ref table .elements) (HasRoom k) := by
  have hcomma : s.Tame (Within a b) (HasRoom k) (ref table .comma) (HasRoom k) :=
    tame_token_leads htable (by decide) ha (leads_token (by simp))
  have hnext := Tame.joins (.andThen ..) hcomma hvalue
  exact tame_ref htable (.joins (.andThen ..) hvalue (.many0 hnext)) le_rfl le_rfl

/-- Members of an object run two rules more: the list of pairs, and the pair. -/
theorem tame_members (ha : 5 ≤ a)
    (hvalue : s.Tame (Within a b) (HasRoom k) (ref table .value) (HasRoom k)) :
    s.Tame (Within (a + 2) b) (HasRoom k) (ref table .members) (HasRoom k) := by
  have hstring : s.Tame (Within a b) (HasRoom k) (ref table .string) (HasRoom k) :=
    tame_token_leads htable (by decide) ha (leads_token (by simp))
  have hcolon : s.Tame (Within a b) (HasRoom k) (ref table .colon) (HasRoom k) :=
    tame_token_leads htable (by decide) (le_trans (by decide) ha) (leads_token (by simp))
  have hcomma : s.Tame (Within (a + 1) b) (HasRoom k) (ref table .comma) (HasRoom k) :=
    tame_token_leads htable (by decide) (le_trans (by decide) (le_add_right ha))
      (leads_token (by simp))
  have hpair : s.Tame (Within (a + 1) b) (HasRoom k) (ref table .pair) (HasRoom k) :=
    tame_ref htable (.joins (.andThen ..) (.joins (.andThen ..) hstring hcolon) hvalue) le_rfl le_rfl
  have hnext := Tame.joins (.andThen ..) hcomma hpair
  exact tame_ref htable (.joins (.andThen ..) hpair (.many0 hnext)) le_rfl le_rfl

/-- An array or object runs one rule more than what is inside, one bracket deeper. -/
theorem tame_container {n inner opening closing : RuleName} (c : Standard.Container)
    (hbody : n.body (ref table) =
      .between (.orElse (ref table inner) .empty) (ref table opening) (ref table closing))
    (hopening : opening.height = 2) (hwords : opening.words = Standard.structural c.opening)
    (hclosing : closing.height = 2) (hn : [n.text].count "value" = 0) (ha : 2 ≤ a)
    (hinner : s.Tame (Within a b) (HasRoom (k + 1)) (ref table inner) (HasRoom (k + 1))) :
    s.Tame (Within (a + 1) b) (HasRoom k) (ref table n) fun _ => True := by
  have hopens : s.Tame (Within a b) (HasRoom k) (ref table opening) (HasRoom (k + 1)) :=
    tame_token_leads htable (by omega) (hopening.trans_le ha) (hwords ▸ leads_opening k c)
  have hcloses : s.Tame (Within a b) (HasRoom (k + 1)) (ref table closing) fun _ => True :=
    tame_mono (tame_token htable (by omega)) (hclosing.trans_le ha) (Nat.zero_le b)
      fun _ _ => trivial
  refine tame_ref htable (a := a) (b := b) ?_ le_rfl (by omega)
  rw [hbody]
  exact .between hopens (.orElse hinner (.empty (within_nil a b))) hcloses

/-- A value runs one rule more than an array or object. -/
theorem tame_value_of_containers (ha : 5 ≤ a)
    (hobject : s.Tame (Within a b) (HasRoom k) (ref table .object) fun _ => True)
    (harray : s.Tame (Within a b) (HasRoom k) (ref table .array) fun _ => True) :
    s.Tame (Within (a + 1) (b + 1)) (HasRoom k) (ref table .value) (HasRoom k) := by
  have htoken {n : RuleName} (hn : n.IsToken) (hheight : n.height ≤ 5) :
      s.Tame (Within a b) (HasRoom k) (ref table n) fun _ => True :=
    tame_mono (tame_token htable hn) (hheight.trans ha) (Nat.zero_le b) fun _ _ => trivial
  have hstring := htoken (n := .string) (by decide) (by decide)
  have hnumber := htoken (n := .number) (by decide) (by decide)
  have htrue := htoken (n := .trueText) (by decide) (by decide)
  have hfalse := htoken (n := .falseText) (by decide) (by decide)
  have hnull := htoken (n := .nullText) (by decide) (by decide)
  refine tame_leads htable (leads_values k .value) (tame_ref htable (b := b) ?_ le_rfl le_rfl)
  exact (((((hstring.orElse hnumber).orElse hobject).orElse harray).orElse htrue).orElse
    hfalse).orElse hnull

/-- The more brackets are open, the fewer rules a value runs: where `levels` more may be opened, four
for each of them and six. Where no more may be opened, nothing has room one bracket deeper. -/
theorem tame_value {levels k : Nat} (hk : k + levels = maxDepth) :
    s.Tame (Within (4 * levels + 6) (levels + 1)) (HasRoom k) (ref table .value) (HasRoom k) := by
  induction levels generalizing k with
  | zero =>
    have hnone (n : RuleName) : s.Tame (Within 4 0) (HasRoom (k + 1)) (ref table n)
        (HasRoom (k + 1)) := fun t r ht _ => absurd ht.le (by omega)
    exact tame_value_of_containers htable le_rfl
      (tame_container htable .object rfl rfl rfl rfl rfl (by omega) (hnone .members))
      (tame_container htable .array rfl rfl rfl rfl rfl (by omega) (hnone .elements))
  | succ levels ih =>
    have hvalue := ih (k := k + 1) (by omega)
    have hmembers := tame_members htable (by omega) hvalue
    have helements := tame_elements htable (by omega) hvalue
    have harray :=
      tame_container (n := .array) htable .array rfl rfl rfl rfl rfl (by omega) helements
    exact tame_value_of_containers htable (by omega)
      (tame_container htable .object rfl rfl rfl rfl rfl (by omega) hmembers)
      (tame_mono harray (by omega) le_rfl fun _ h => h)

/-- A document that is not refused runs one rule more than a value outside all brackets. -/
theorem tame_document : s.Tame (Within (4 * maxDepth + 7) (maxDepth + 1)) (HasRoom 0)
    (ref table .document) fun _ => True := by
  have hnil : Within (4 * maxDepth + 6) (maxDepth + 1) [] := within_nil _ _
  have hvalue := tame_value htable (Nat.zero_add maxDepth)
  have hws : s.Tame (Within (4 * maxDepth + 6) (maxDepth + 1)) (HasRoom 0) (ref table .ws)
      (HasRoom 0) := tame_token_leads htable (by decide) (by decide) (leads_token (by simp))
  have heof : s.Tame (Within (4 * maxDepth + 6) (maxDepth + 1)) (HasRoom 0) .eof fun _ => True :=
    .direct rfl hnil fun _ _ _ _ _ => trivial
  have hbody := Tame.joins (.andThen ..) (.thenOptional hnil (.optionalThen hnil hws hvalue) hws) heof
  refine tame_ref htable (.guarded hnil ?_ ?_) le_rfl le_rfl
  · intro t e he
    obtain ⟨_, rfl⟩ := Option.ite_some_none_eq_some.1 he
    trivial
  · exact hbody.imp (fun _ h => h) (fun _ h => h.1) fun _ h => h

end

/-- What is refused runs no rule but the one for documents. -/
theorem eq_of_tooDeep (htable : s.table table = .ready (rules table)) {r : Run}
    (ht : maxDepth < nestingDepth t.chars) (h : s.Runs (ref table .document) t r) :
    r = ⟨.failure t, [.enterRule "document" t.size,
      .nestedTooDeeply (nestingDepth t.chars) maxDepth, .exitRule "document" false 0]⟩ := by
  have hobjection : tooDeep t = some (.nestedTooDeeply (nestingDepth t.chars) maxDepth) := if_pos ht
  obtain ⟨o, l, hbody, rfl⟩ := h.rule_cases rfl (rule?_slot htable .document)
  rcases Runs.guarded_cases hbody with ⟨e, he, heq⟩ | ⟨hnone, _⟩
  · obtain rfl := Option.some.inj (hobjection.symm.trans he)
    cases heq
    have hconsumed : (Outcome.failure t).consumed t = 0 := Nat.sub_self t.size
    rw [hconsumed]
    rfl
  · rw [hobjection] at hnone
    cases hnone

/-- However long and whatever the text is, the rules of JSON call each other only so deep. A text in
which the scan finds more brackets open than are allowed is refused before any rule but the one for
documents is entered. In any other run, at every moment at most one rule more than there may be
brackets reads a value, and at most 519 rules run at all. -/
theorem grammar_bounded {σ : Type} (site : Site σ) :
    ∃ p site', grammar site = (.ok p, site') ∧
      ∀ t, ∃ r, site'.store.run p t = some r ∧
        (maxDepth < nestingDepth t.chars ∧
            r.log = [.enterRule "document" t.size,
              .nestedTooDeeply (nestingDepth t.chars) maxDepth, .exitRule "document" false 0] ∨
          nestingDepth t.chars ≤ maxDepth ∧
            ∀ moment, (running (r.log.take moment)).count "value" ≤ maxDepth + 1 ∧
              (running (r.log.take moment)).length ≤ 519) := by
  refine ⟨entryIn site.store, _, grammar_eq site, fun t => ?_⟩
  have htable := table_builtStore site.store
  obtain ⟨r, hr, hrun⟩ := exists_run_entryIn site.store t
  refine ⟨r, hr, ?_⟩
  rcases lt_or_ge maxDepth (nestingDepth t.chars) with hdeep | hflat
  · exact .inl ⟨hdeep, congrArg Run.log (eq_of_tooDeep htable hdeep hrun)⟩
  · refine .inr ⟨hflat, fun moment => ?_⟩
    obtain ⟨hlength, hcount⟩ := (tame_document htable t r hflat hrun).1.running_take moment
    exact ⟨hcount, hlength⟩

end Descent.Json
