import Descent.Proofs.Json.Rules
import Descent.Proofs.Json.Standard

/-!
# What the JSON grammar matches

Each rule of the grammar has a language in the standard's terms, and what its body matches is a word
of that language. For most rules this can be seen from the body alone. A whole number is another
matter: its body says nothing against a leading zero, but tries a single zero first. So whatever a
rule matches, the standard allows (`mem_words_of_runs`).
-/

namespace Descent.Json

open Computability

/-! ## Languages of the rules -/

/-- A value, however deep. -/
def values (symbol : Standard.Symbol) : Language Char := {m | ∃ d, Standard.Derives symbol d m}

/-- The language of a rule. -/
def RuleName.words : RuleName → Language Char
  | ws => single (· ∈ [' ', '\t', '\n', '\r']) * Standard.ws
  | bopen => Standard.structural '\x7b'
  | bclose => Standard.structural '\x7d'
  | sopen => Standard.structural '['
  | sclose => Standard.structural ']'
  | colon => Standard.structural ':'
  | comma => Standard.structural ','
  | quote => {['"']}
  | trueText => {"true".toList}
  | falseText => {"false".toList}
  | nullText => {"null".toList}
  | hexdigit => Standard.hexdig
  | unicode => {['u']} * Standard.hexdig ^ 4
  | escaped => Standard.escape
  | unescaped => Standard.unescaped
  | stringChar => Standard.unescaped + Standard.escape
  | string => Standard.string
  | digits => Standard.digit * Standard.digit∗
  | integer => Standard.int
  | fraction => Standard.frac
  | exponent => Standard.exp
  | number => Standard.number
  | elements => values (.items .array)
  | pair => values (.item .object)
  | members => values (.items .object)
  | array | object | value => values .value
  | document => {m | ∃ d, m ∈ Standard.text d}

/-- The languages of the rules of the table; nothing is said about other rules. -/
def languages (table : Nat) (id : RuleId) : Language Char :=
  if id.table = table then (RuleName.all[id.slot]?.map RuleName.words).getD 0 else ⊤

/-- The parser for a rule has the language of the rule. -/
theorem language_ref (table : Nat) (n : RuleName) :
    (ref table n).language (languages table) = n.words := by
  have hslot : RuleName.all[n.slot]? = some n := by cases n <;> rfl
  simp [ref, Parser.language, languages, hslot]

/-! ## Characters -/

/-- The words of one given character. -/
theorem single_eq (c : Char) : single (· = c) = {[c]} := by
  ext m
  constructor
  · rintro ⟨d, rfl, rfl⟩
    rfl
  · rintro rfl
    exact ⟨c, rfl, rfl⟩

/-- A narrower kind has fewer words. -/
theorem single_mono {kind kind' : Char → Prop} (h : ∀ c, kind c → kind' c) :
    single kind ≤ single kind' := by
  rintro _ ⟨c, hc, rfl⟩
  exact ⟨c, h c hc, rfl⟩

/-- Digits are recognised as in the standard. -/
theorem single_isDigit : single (·.isDigit) = Standard.digit := by
  have hdigit (c : Char) : c.isDigit = true ↔ '0' ≤ c ∧ c ≤ '9' := by
    simp only [Char.isDigit, Bool.and_eq_true, decide_eq_true_eq]
    rfl
  simp only [Standard.digit, hdigit]

/-- Hexadecimal digits are those of the standard. -/
theorem single_hexDigits : single (· ∈ hexDigits) ≤ Standard.hexdig :=
  single_mono (forall_mem_of_all (by decide))

/-- What is left of the characters without those that must be escaped stands for itself. -/
theorem single_unescapable : single (· ∉ unescapable) ≤ Standard.unescaped := by
  refine single_mono fun c hc => ?_
  simp only [unescapable, List.mem_append, List.mem_cons, List.not_mem_nil, or_false,
    List.mem_map, List.mem_range, not_or, not_exists, not_and] at hc
  obtain ⟨⟨hquote, hback⟩, hcontrol⟩ := hc
  refine ⟨?_, hquote, hback⟩
  by_contra hlt
  have hnat : c.toNat < 0x20 := Nat.not_le.1 hlt
  exact hcontrol c.toNat hnat (Char.ofNat_toNat c)

/-- One blank or more, or none, are any number of blanks. -/
theorem words_ws_add_one : RuleName.ws.words + 1 = Standard.ws := by
  rw [add_comm]
  exact one_add_mul_kstar

/-! ## Brackets, separators and lists -/

/-- A bracket or separator with blanks before it, after it, or both, is one with blanks around it.
-/
theorem structural_of_blanks {a b : Language Char} (c : Char) (ha : a ≤ Standard.ws)
    (hb : b ≤ Standard.ws) : a * single (· = c) * b ≤ Standard.structural c := by
  rw [single_eq]
  exact mul_le_mul' (mul_le_mul' ha (le_refl _)) hb

/-- An item and any number of commas and items after it make a list of items. -/
theorem append_flatten_mem_items {k : Standard.Container} {item : List Char}
    (hitem : item ∈ values (.item k)) {parts : List (List Char)}
    (hparts : ∀ part ∈ parts, part ∈ Standard.structural ',' * values (.item k)) :
    item ++ parts.flatten ∈ values (.items k) := by
  induction parts generalizing item with
  | nil =>
    obtain ⟨d, hitem⟩ := hitem
    rw [List.flatten_nil, List.append_nil]
    exact ⟨d, .last hitem⟩
  | cons part parts ih =>
    obtain ⟨d, hitem⟩ := hitem
    obtain ⟨comma, hcomma, next, hnext, rfl⟩ := hparts part List.mem_cons_self
    obtain ⟨e, hitems⟩ := ih hnext fun y hy => hparts y (List.mem_cons_of_mem _ hy)
    have happend : item ++ ((comma ++ next) :: parts).flatten =
        item ++ comma ++ (next ++ parts.flatten) := by
      simp
    exact ⟨max d e, happend ▸ .more hitem hcomma hitems⟩

/-- An item with a repetition of commas and items after it makes a list of items. -/
theorem mul_kstar_le_items (k : Standard.Container) :
    values (.item k) * (Standard.structural ',' * values (.item k))∗ ≤ values (.items k) := by
  rintro _ ⟨item, hitem, rest, hrest, rfl⟩
  obtain ⟨parts, rfl, hparts⟩ := Language.mem_kstar.1 hrest
  exact append_flatten_mem_items hitem hparts

/-- Items between brackets, or none, make a value. -/
theorem brackets_le_value (k : Standard.Container) :
    Standard.structural k.opening * (values (.items k) + 1) * Standard.structural k.closing ≤
      values .value := by
  rintro _ ⟨_, ⟨o, ho, items, ⟨d, hitems⟩ | hempty, rfl⟩, c, hc, rfl⟩
  · exact ⟨d + 1, .full k ho hitems hc⟩
  · have hempty : items = [] := hempty
    have hvalue := Standard.Derives.empty k ho hc
    rw [← List.append_nil o, ← hempty] at hvalue
    exact ⟨1, hvalue⟩

/-! ## Bodies -/

/-- The values of an array are its items. -/
theorem values_item_array : values (.item .array) = values .value := by
  ext m
  constructor
  · rintro ⟨d, h⟩
    cases h with
    | element h => exact ⟨d, h⟩
  · rintro ⟨d, h⟩
    exact ⟨d, .element h⟩

/-- Strings, numbers and literals are values. -/
theorem scalar_le_values : Standard.scalar ≤ values .value := fun _ hm => ⟨0, .scalar hm⟩

/-- The body of a rule has no other words than the rule, the rule for whole numbers apart. -/
theorem language_body_le (table : Nat) {n : RuleName} (hn : n ≠ .integer) :
    (n.body (ref table)).language (languages table) ≤ n.words := by
  have hws : RuleName.ws.words + 1 ≤ Standard.ws := words_ws_add_one.le
  have hone : (1 : Language Char) ≤ Standard.ws := one_le_kstar
  cases n with
  | integer => exact absurd rfl hn
  | ws => exact le_refl _
  | bopen | sopen =>
    simp only [RuleName.body, Parser.language, language_ref]
    rw [← one_mul (single _)]
    exact structural_of_blanks _ hone hws
  | bclose | sclose =>
    simp only [RuleName.body, Parser.language, language_ref]
    rw [← mul_one (_ * single _)]
    exact structural_of_blanks _ hws hone
  | colon | comma =>
    simp only [RuleName.body, Parser.language, language_ref]
    exact structural_of_blanks _ hws hws
  | quote => exact (single_eq '"').le
  | trueText | falseText | nullText => exact le_refl _
  | hexdigit => exact single_hexDigits
  | unicode =>
    simp only [RuleName.body, Parser.shiftRight_eq, Parser.language, language_ref, single_eq]
    exact le_refl _
  | escaped =>
    simp only [RuleName.body, Parser.shiftRight_eq, Parser.or_eq, Parser.language, language_ref,
      single_eq]
    exact le_refl _
  | unescaped => exact single_unescapable
  | stringChar =>
    simp only [RuleName.body, Parser.or_eq, Parser.language, language_ref]
    exact le_refl _
  | string =>
    simp only [RuleName.body, Parser.language, language_ref]
    exact le_refl _
  | digits =>
    simp only [RuleName.body, Parser.language, single_isDigit]
    exact le_refl _
  | fraction =>
    simp only [RuleName.body, Parser.shiftRight_eq, Parser.language, language_ref, single_eq]
    exact le_refl _
  | exponent =>
    simp only [RuleName.body, Parser.shiftRight_eq, Parser.language, language_ref, ← mul_assoc]
    exact le_refl _
  | number =>
    simp only [RuleName.body, Parser.language, language_ref, single_eq, ← mul_assoc]
    exact le_refl _
  | elements =>
    simp only [RuleName.body, Parser.shiftRight_eq, Parser.language, language_ref]
    have hitems := mul_kstar_le_items .array
    rwa [values_item_array] at hitems
  | members =>
    simp only [RuleName.body, Parser.shiftRight_eq, Parser.language, language_ref]
    exact mul_kstar_le_items .object
  | array =>
    simp only [RuleName.body, Parser.or_eq, Parser.language, language_ref]
    exact brackets_le_value .array
  | object =>
    simp only [RuleName.body, Parser.or_eq, Parser.language, language_ref]
    exact brackets_le_value .object
  | pair =>
    simp only [RuleName.body, Parser.shiftRight_eq, Parser.language, language_ref]
    rintro _ ⟨_, ⟨name, hname, colon, hcolon, rfl⟩, value, ⟨d, hvalue⟩, rfl⟩
    exact ⟨d, .member hname hcolon hvalue⟩
  | value =>
    simp only [RuleName.body, Parser.or_eq, Parser.language, language_ref]
    rintro m ((((((hm | hm) | hm) | hm) | hm) | hm) | hm)
    · exact scalar_le_values (.inr hm)
    · exact scalar_le_values (.inl (.inr hm))
    · exact hm
    · exact hm
    · exact scalar_le_values (.inl (.inl (.inr hm)))
    · exact scalar_le_values (.inl (.inl (.inl (.inl hm))))
    · exact scalar_le_values (.inl (.inl (.inl (.inr hm))))
  | document =>
    simp only [RuleName.body, Parser.shiftRight_eq, Parser.language, language_ref,
      words_ws_add_one, mul_one]
    rintro _ ⟨_, ⟨lead, hlead, value, ⟨d, hvalue⟩, rfl⟩, trail, htrail, rfl⟩
    exact ⟨d, Language.append_mem_mul (Language.append_mem_mul hlead hvalue) htrail⟩

/-! ## Runs -/

variable {s : Store} {table : Nat}

/-- A digit that is not zero is at least one. -/
theorem one_le_of_ne_zero {c : Char} (hc : '0' ≤ c) (hne : c ≠ '0') : '1' ≤ c := by
  have hle : 48 ≤ c.toNat := hc
  have hne : c.toNat ≠ 48 := fun heq => hne (by rw [← Char.ofNat_toNat c, heq])
  have hlt : 49 ≤ c.toNat := by omega
  exact hlt

/-- Where the rule for whole numbers comes to several digits, the first of them is not a zero,
because a single zero was tried before. -/
theorem mem_int_of_runs (htable : s.table table = .ready (rules table)) {t x : Text}
    {m : List Char} {l : Log} (h : s.Runs (RuleName.integer.body (ref table)) t ⟨.success m x, l⟩)
    (hm : m ∈ (RuleName.integer.body (ref table)).language (languages table)) :
    m ∈ Standard.int := by
  rw [RuleName.body, Parser.or_eq, Parser.language, language_ref, Parser.language,
    single_eq] at hm
  have h : s.Runs (.orElse (.one '0') (ref table .digits)) t _ := h
  rcases h.orElse_cases with ⟨m', x', l', hone, heq⟩ | ⟨y, l', o, l'', hone, hdigits, heq⟩
  · cases heq
    have hchar := congrArg Run.outcome (hone.eq_direct rfl)
    obtain ⟨c, hc, rfl⟩ := Parser.mem_single_of_char hchar.symm
    obtain rfl : c = '0' := by simpa using hc
    exact .inl rfl
  · cases heq
    rcases hm with hzero | ⟨_, ⟨c, hc, rfl⟩, rest, hrest, rfl⟩
    · exact .inl hzero
    · refine .inr (Language.append_mem_mul ⟨c, ⟨?_, hc.2⟩, rfl⟩ hrest)
      have hplain := everywhere_plain htable (all_ref table .digits)
      have hconserves := hdigits.conserves fun q hq => (hplain q hq).2.1
      refine one_le_of_ne_zero hc.1 fun hzero => ?_
      have hchar := congrArg Run.outcome (hone.eq_direct rfl)
      rw [Step.char_of_cons hconserves.symm] at hchar
      simp [hzero] at hchar

/-- Whatever a parser for a rule matches is a word of the rule's language. -/
theorem mem_words_of_runs (htable : s.table table = .ready (rules table)) {n : RuleName}
    {t x : Text} {m : List Char} {l : Log} (h : s.Runs (ref table n) t ⟨.success m x, l⟩) :
    m ∈ n.words := by
  rw [← language_ref table n]
  refine h.mem_language (fun id rule t m x l hrule hbody hm => ?_) m x rfl
  by_cases hid : id.table = table
  · simp only [Store.rule?, hid, htable] at hrule
    obtain ⟨n, hslot, rfl⟩ := exists_of_getElem?_rules hrule
    have hwords : languages table id = n.words := by
      rw [← language_ref table n, ref, Parser.language, hslot, ← hid]
    rw [hwords]
    by_cases hn : n = .integer
    · subst hn
      exact mem_int_of_runs htable hbody hm
    · exact language_body_le table hn hm
  · simp only [languages, hid, if_false]
    exact Set.mem_univ m

end Descent.Json
