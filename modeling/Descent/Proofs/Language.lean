import Mathlib
import Descent.Proofs.Runs

/-!
# The language of a parser

Each parser stands for a language, given the languages of the rules: sequences for products, choices
for sums, loops for stars. Ordered choice and greed make a parser match less than its language, but
never anything else (`Store.Runs.mem_language`). So it is enough to know for each rule that what its
body matches belongs to the language of the rule.
-/

namespace Descent

open Computability

/-- A word of a language is a word of its star. -/
theorem mem_kstar_of_mem {l : Language Char} {m : List Char} (hm : m ∈ l) : m ∈ l∗ := by
  have hle : l ≤ l∗ := le_kstar
  exact hle hm

/-- A word in front of a word of the star is a word of the star. -/
theorem append_mem_kstar {l : Language Char} {m n : List Char} (hm : m ∈ l) (hn : n ∈ l∗) :
    m ++ n ∈ l∗ := by
  have hle : l * l∗ ≤ l∗ := mul_kstar_le_kstar
  exact hle (Language.append_mem_mul hm hn)

/-- A check of all characters of a list. -/
theorem forall_mem_of_all {kind : Char → Prop} [DecidablePred kind] {chars : List Char}
    (h : chars.all (fun c => decide (kind c)) = true) : ∀ c ∈ chars, kind c :=
  fun c hc => of_decide_eq_true (List.all_eq_true.1 h c hc)

/-- The words of one character of a kind. -/
def single (kind : Char → Prop) : Language Char := {m | ∃ c, kind c ∧ m = [c]}

/-- The words of the star of a kind are those of characters of the kind. -/
theorem mem_kstar_single_iff {kind : Char → Prop} {m : List Char} :
    m ∈ (single kind)∗ ↔ ∀ c ∈ m, kind c := by
  constructor
  · intro h c hc
    obtain ⟨words, rfl, hwords⟩ := Language.mem_kstar.1 h
    obtain ⟨word, hword, hcword⟩ := List.mem_flatten.1 hc
    obtain ⟨d, hd, rfl⟩ := hwords word hword
    rwa [List.mem_singleton.1 hcword]
  · intro h
    induction m with
    | nil => exact Language.nil_mem_kstar _
    | cons c m ih =>
      have hc : [c] ∈ single kind := ⟨c, h c List.mem_cons_self, rfl⟩
      exact append_mem_kstar hc (ih fun d hd => h d (List.mem_cons_of_mem c hd))

namespace Parser

/-- The language of a parser, when `rules` says what the languages of the rules are. -/
def language (rules : RuleId → Language Char) : Parser → Language Char
  | eof => 1
  | empty => 1
  | whitespace => (single (· ∈ [' ', '\n', '\t']))∗
  | anyLetter => single (·.isAlpha)
  | anyNumber => single (·.isDigit)
  | one c => single (· = c)
  | literal text => {text}
  | pattern _ => ⊤
  | anyChar chars => single (· ∈ chars)
  | anyCharBut chars => single (· ∉ chars)
  | many0 body => (body.language rules)∗
  | many1 body => body.language rules * (body.language rules)∗
  | exactly count body => body.language rules ^ count
  | between inner opening closing =>
    opening.language rules * inner.language rules * closing.language rules
  | orElse a b => a.language rules + b.language rules
  | andThen a b => a.language rules * b.language rules
  | thenOptional a b => a.language rules * (b.language rules + 1)
  | optionalThen a b => (a.language rules + 1) * b.language rules
  | thenIgnore a _ => a.language rules
  | ignoreThen _ b => b.language rules
  | named _ body => body.language rules
  | handmade _ _ => ⊤
  | guarded _ body => body.language rules
  | reference _ rule => rules rule
  | unresolved _ => 0
  | entry _ rule => rules rule

variable {rules : RuleId → Language Char} {a b p q : Parser}

/-- The simpler form of a parser has the same language. -/
theorem language_expand (hp : p.expand? = some q) : q.language rules = p.language rules := by
  cases p with
  | exactly count body =>
    cases count with
    | zero =>
      cases Option.some.inj hp
      exact (pow_zero _).symm
    | succ count =>
      cases Option.some.inj hp
      exact (pow_succ' _ _).symm
  | between | thenOptional | optionalThen | named =>
    cases Option.some.inj hp
    rfl
  | _ => cases hp

/-- The matches of both parts of a sequence make a word of its language. -/
theorem Joins.mem_language {keep : List Char → List Char → List Char} {m n : List Char}
    (hp : Joins keep a b p) (hm : m ∈ a.language rules) (hn : n ∈ b.language rules) :
    keep m n ∈ p.language rules := by
  cases hp with
  | andThen => exact Language.append_mem_mul hm hn
  | thenIgnore => exact hm
  | ignoreThen => exact hn

/-- A character that is matched is of the kind that is accepted. -/
theorem mem_single_of_char {accept : Char → Bool} {t x : Text} {m : List Char}
    (h : Step.char accept t = .success m x) : m ∈ single (accept ·) := by
  unfold Step.char at h
  cases hchar : t.uncons? with
  | none => simp [hchar] at h
  | some pair =>
    simp only [hchar] at h
    split at h
    next hc =>
      cases h
      exact ⟨_, hc, rfl⟩
    · cases h

/-- What a parser without parts matches is a word of its language. -/
theorem direct_mem_language {f : Text → Outcome} {t x : Text} {m : List Char}
    (hp : p.direct? = some f) (hf : f t = .success m x) : m ∈ p.language rules := by
  cases p with
  | eof =>
    cases Option.some.inj hp
    unfold Step.eof at hf
    split at hf
    · cases hf
      exact Language.nil_mem_one
    · cases hf
  | empty =>
    cases Option.some.inj hp
    cases hf
    exact Language.nil_mem_one
  | whitespace =>
    cases Option.some.inj hp
    simp only [Step.span] at hf
    split at hf
    · cases hf
    · cases hf
      refine mem_kstar_single_iff.2 fun c hc => ?_
      have hkind := List.all_eq_true.1 List.all_takeWhile c hc
      simpa using hkind
  | literal text =>
    cases Option.some.inj hp
    unfold Step.literal at hf
    split at hf
    · cases hf
      exact Set.mem_singleton _
    · cases hf
  | pattern | handmade => exact Set.mem_univ m
  | unresolved name =>
    cases Option.some.inj hp
    cases hf
  | anyLetter | anyNumber =>
    cases Option.some.inj hp
    exact mem_single_of_char hf
  | one | anyChar | anyCharBut =>
    cases Option.some.inj hp
    obtain ⟨c, hc, rfl⟩ := mem_single_of_char hf
    exact ⟨c, by simpa using hc, rfl⟩
  | _ => cases hp

end Parser

namespace Store

variable {s : Store} {p : Parser} {t : Text} {r : Run} {rules : RuleId → Language Char}

/-- What a parser matches is a word of its language, if what the body of each rule matches is a word
of the language of the rule. -/
theorem Runs.mem_language (h : s.Runs p t r)
    (hrules : ∀ id rule t m x l, s.rule? id = some rule → s.Runs rule.body t ⟨.success m x, l⟩ →
      m ∈ rule.body.language rules → m ∈ rules id) :
    ∀ m x, r.outcome = .success m x → m ∈ p.language rules := by
  induction h with
  | direct t hdirect => exact fun m x hx => Parser.direct_mem_language hdirect hx
  | expand hexpand _ ih =>
    rw [← Parser.language_expand hexpand]
    exact ih
  | first b _ ih => exact fun m x hx => .inl (ih m x hx)
  | second _ _ _ ih => exact fun m x hx => .inr (ih m x hx)
  | joins hjoins _ _ iha ihb =>
    intro m x hx
    cases hx
    exact hjoins.mem_language (iha _ _ rfl) (ihb _ _ rfl)
  | stop =>
    intro m x hx
    cases hx
    exact Language.nil_mem_kstar _
  | last _ _ ih =>
    intro m x hx
    exact mem_kstar_of_mem (ih m x hx)
  | more _ _ _ ihb ihrest =>
    intro m x hx
    cases hx
    exact append_mem_kstar (ihb _ _ rfl) (ihrest _ _ rfl)
  | once hb hloop ihb ihloop =>
    intro m x hx
    have hm := ihloop m x hx
    rw [Parser.language, ← Language.one_add_self_mul_kstar_eq_kstar] at hm
    rcases hm with hempty | hm
    · -- The first repetition has matched nothing either.
      have hm : m = [] := hempty
      have hfirst := ihb _ _ rfl
      rcases hloop.many0_of_success hb with rfl | ⟨n, y, l', _, rfl⟩ <;> cases hx
      · rw [hm] at hfirst ⊢
        exact Language.append_mem_mul hfirst (Language.nil_mem_kstar _)
      · rw [hm]
        rw [(List.append_eq_nil_iff.1 hm).1] at hfirst
        exact Language.append_mem_mul hfirst (Language.nil_mem_kstar _)
    · exact hm
  | admitted _ _ ih => exact ih
  | @rule p id rule t o l htarget hrule hbody ih =>
    intro m x hx
    cases hx
    have hm := hrules id rule t m x l hrule hbody (ih m x rfl)
    cases p <;> cases htarget <;> exact hm
  | breaks | breaksLate | never | objected | dead | missing =>
    intro m x hx
    cases hx

end Store

end Descent
