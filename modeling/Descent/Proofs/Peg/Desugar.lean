import Descent.Grammar.Build
import Descent.Proofs.Backtracking
import Descent.Proofs.Peg.Derivation

/-!
# Parsers as parsing expressions

Every parser stands for a parsing expression, in which only sequences, ordered choices, loops and
rules are left of the combinations. A run of an honest parser ends with what the expression derives,
if loops may end where nothing is left (`run_derives`). Without that leave an expression can derive
nothing where the parser succeeds, because a rule that calls itself on the empty text is tried once
more (`run_without_derivation`); where it does derive something, that is the same.
-/

namespace Descent

/-- What a function written by hand leaves on success, as characters. -/
def Outcome.rest? : Outcome → Option (List Char)
  | success _ rest => some rest.chars
  | failure _ => none

/-- The parsing expression that a parser stands for. -/
def Parser.desugar : Parser → Peg
  | eof => .finish
  | empty => .epsilon
  | whitespace =>
    let blank : Peg := .char fun c => c = ' ' ∨ c = '\n' ∨ c = '\t'
    .seq blank (.star blank)
  | anyLetter => .char Char.isAlpha
  | anyNumber => .char Char.isDigit
  | one c => .char (· = c)
  | literal text => .literal text
  | pattern p => .oracle fun t => (p.find t).map fun (_, last) => t.drop last
  | anyChar chars => .char fun c => chars.contains c
  | anyCharBut chars => .char fun c => !chars.contains c
  | many0 body => .star body.desugar
  | many1 body => .seq body.desugar (.star body.desugar)
  | exactly count body => .power body.desugar count
  | between inner opening closing => .seq (.seq opening.desugar inner.desugar) closing.desugar
  | orElse a b => .choice a.desugar b.desugar
  | andThen a b => .seq a.desugar b.desugar
  | thenOptional a b => .seq a.desugar (.choice b.desugar .epsilon)
  | optionalThen a b => .seq (.choice a.desugar .epsilon) b.desugar
  | thenIgnore a b => .seq a.desugar b.desugar
  | ignoreThen a b => .seq a.desugar b.desugar
  | named _ body => body.desugar
  | handmade _ run => .oracle fun t => (run (.ofList t)).rest?
  | guarded objection body =>
    .seq (.oracle fun t => if (objection (.ofList t)).isNone then some t else none) body.desugar
  | reference _ id => .rule id
  | unresolved _ => .never
  | entry _ id => .rule id

/-- The parsing expressions of the rules in a store. A rule that is not there fails. -/
def Store.rules (s : Store) (id : RuleId) : Peg :=
  match s.rule? id with
  | some rule => rule.body.desugar
  | none => .never

/-- The outcome on a text is what an expression derives: a failure, or the part of the text before
what is left. -/
def Outcome.DerivedBy (rules : RuleId → Peg) (early : Prop) (e : Peg) (t : Text) : Outcome → Prop
  | success _ rest => ∃ x, t.chars = x ++ rest.chars ∧ e.Derives rules early t.chars (some x)
  | failure _ => e.Derives rules early t.chars none

namespace Outcome.DerivedBy

variable {rules : RuleId → Peg} {early : Prop} {e e' body : Peg} {o : Outcome} {t x : Text}
  {m : List Char}

/-- The outcome is what another expression derives, if that derives the same from the text. -/
theorem imp (h : o.DerivedBy rules early e t)
    (himp : ∀ found, e.Derives rules early t.chars found → e'.Derives rules early t.chars found) :
    o.DerivedBy rules early e' t := by
  cases o with
  | success m x =>
    obtain ⟨front, hfront, hd⟩ := h
    exact ⟨front, hfront, himp _ hd⟩
  | failure x => exact himp _ h

/-- A loop that may end early ends with a round that leaves nothing, or as much as it has found. As
the sizes are those of end parts, equal ones mean that nothing was consumed. -/
theorem last (h : (success m x).DerivedBy rules True body t)
    (hsize : x.size = 0 ∨ x.size = t.size) : (success m x).DerivedBy rules True (.star body) t := by
  obtain ⟨front, hfront, hbody⟩ := h
  by_cases hnil : front = []
  · subst hnil
    exact ⟨[], hfront, .starStill hbody⟩
  · have hrest : x.chars = [] := by
      rcases hsize with hzero | hsame
      · exact utf8Size_eq_zero_iff.1 (x.size_eq.symm.trans hzero)
      · have hsum := Text.size_eq_add hfront
        exact absurd (utf8Size_eq_zero_iff.1 (by omega)) hnil
    refine ⟨front, hfront, ?_⟩
    rw [hrest] at hfront
    have hstar := Peg.Derives.starMore hbody hnil hfront (.starEnd trivial body)
    rwa [List.append_nil] at hstar

end Outcome.DerivedBy

/-! ## Parsers without parts -/

namespace Peg

variable {rules : RuleId → Peg} {early : Prop}

/-- A loop over a kind of characters consumes them as far as they go. -/
theorem star_char_derives (accept : Char → Bool) (t : List Char) :
    Derives rules early (.star (.char accept)) t (some (t.takeWhile accept)) := by
  induction t with
  | nil => exact .starStop (.charNone accept)
  | cons c t ih =>
    by_cases hc : accept c = true
    · rw [List.takeWhile_cons_of_pos hc]
      exact .starMore (.char t hc) (by simp) rfl ih
    · rw [List.takeWhile_cons_of_neg hc]
      exact .starStop (.charOther t (by simpa using hc))

/-- A given text consumes itself. -/
theorem literal_derives (text rest : List Char) :
    Derives rules early (.literal text) (text ++ rest) (some text) := by
  induction text with
  | nil => exact .epsilon rest
  | cons c text ih => exact .seq (.char (text ++ rest) (by simp)) rfl ih

/-- A given text fails on a text that does not start with it. -/
theorem literal_fails (text : List Char) {t : List Char} (h : ∀ rest, t ≠ text ++ rest) :
    Derives rules early (.literal text) t none := by
  induction text generalizing t with
  | nil => exact absurd rfl (h t)
  | cons c text ih =>
    cases t with
    | nil => exact .seqFails _ (.charNone _)
    | cons d t =>
      by_cases hd : d = c
      · subst hd
        refine .seqFailsLate (.char t (by simp)) rfl (ih fun rest hrest => h rest ?_)
        rw [hrest, List.cons_append]
      · exact .seqFails _ (.charOther t (by simpa using hd))

end Peg

namespace Step

variable {rules : RuleId → Peg} {early : Prop}

/-- The end of the text does what its expression derives. -/
theorem eof_derivedBy (t : Text) : (eof t).DerivedBy rules early .finish t := by
  unfold eof
  by_cases h : t.isEmpty = true
  · rw [if_pos h]
    have hchars := Text.isEmpty_iff.1 h
    refine ⟨[], rfl, ?_⟩
    rw [hchars]
    exact .finish
  · rw [if_neg h]
    change Peg.Derives rules early .finish t.chars none
    cases hchars : t.chars with
    | nil => exact absurd (Text.isEmpty_iff.2 hchars) h
    | cons c rest => exact .unfinished c rest

/-- A character of a kind does what its expression derives. -/
theorem char_derivedBy (accept : Char → Bool) (t : Text) :
    (char accept t).DerivedBy rules early (.char accept) t := by
  unfold char
  cases h : t.uncons? with
  | none =>
    change Peg.Derives rules early (.char accept) t.chars none
    rw [Text.uncons?_eq_none_iff.1 h]
    exact .charNone accept
  | some pair =>
    obtain ⟨c, rest⟩ := pair
    have ht : t.chars = c :: rest.chars := Text.uncons?_eq_some_iff.1 h
    by_cases hc : accept c = true
    · simp only [hc, if_true]
      refine ⟨[c], ht, ?_⟩
      rw [ht]
      exact .char rest.chars hc
    · simp only [hc]
      change Peg.Derives rules early (.char accept) t.chars none
      rw [ht]
      exact .charOther rest.chars (by simpa using hc)

/-- A span does what is derived by its expression, which is a character and a loop over more. -/
theorem span_derivedBy (accept : Char → Bool) (t : Text) :
    (span accept t).DerivedBy rules early (.seq (.char accept) (.star (.char accept))) t := by
  have hexact := span_exact accept t
  simp only [span] at hexact ⊢
  cases ht : t.chars with
  | nil =>
    change Peg.Derives rules early _ t.chars none
    rw [ht]
    exact .seqFails _ (.charNone accept)
  | cons c rest =>
    by_cases hc : accept c = true
    · rw [ht, List.takeWhile_cons_of_pos hc] at hexact
      rw [List.takeWhile_cons_of_pos hc]
      refine ⟨c :: rest.takeWhile accept, hexact.symm, ?_⟩
      rw [ht]
      exact .seq (.char rest hc) rfl (Peg.star_char_derives accept rest)
    · rw [List.takeWhile_cons_of_neg hc]
      change Peg.Derives rules early _ t.chars none
      rw [ht]
      exact .seqFails _ (.charOther rest (by simpa using hc))

/-- A given text does what its expression derives. -/
theorem literal_derivedBy (text : List Char) (t : Text) :
    (literal text t).DerivedBy rules early (.literal text) t := by
  unfold literal
  cases h : t.after? text with
  | none =>
    refine Peg.literal_fails text fun rest hrest => ?_
    have hchars : t.chars = text ++ (Text.ofList rest).chars := hrest
    have hsome := Text.after?_eq_some_iff.2 hchars
    rw [h] at hsome
    cases hsome
  | some rest =>
    have ht := Text.after?_eq_some_iff.1 h
    refine ⟨text, ht, ?_⟩
    rw [ht]
    exact Peg.literal_derives text rest.chars

/-- A search does what is derived by its expression, which asks it for the rest. -/
theorem found_derivedBy (search : List Char → Option (Nat × Nat)) (t : Text) :
    (found search t).DerivedBy rules early
      (.oracle fun t => (search t).map fun (_, last) => t.drop last) t := by
  unfold found
  cases h : search t.chars with
  | none => exact .oracleFails (by simp [h])
  | some place =>
    obtain ⟨first, last⟩ := place
    refine ⟨t.chars.take last, by simp, .oracle (by simp [h]) (List.take_append_drop last _).symm⟩

end Step
namespace Parser

/-- An honest parser without parts does what its expression derives. -/
theorem direct_derivedBy {p : Parser} {f : Text → Outcome} {rules : RuleId → Peg} {early : Prop}
    (t : Text) (hp : p.direct? = some f) (hgood : p.Honest) :
    (f t).DerivedBy rules early p.desugar t := by
  cases p with
  | eof =>
    cases Option.some.inj hp
    exact Step.eof_derivedBy t
  | empty =>
    cases Option.some.inj hp
    exact ⟨[], rfl, .epsilon t.chars⟩
  | whitespace =>
    cases Option.some.inj hp
    exact Step.span_derivedBy _ t
  | literal text =>
    cases Option.some.inj hp
    exact Step.literal_derivedBy text t
  | pattern q =>
    cases Option.some.inj hp
    exact Step.found_derivedBy q.find t
  | handmade name run =>
    cases Option.some.inj hp
    have hfair := hgood t
    have hrest : (f (.ofList t.chars)).rest? = (f t).rest? := by rw [Text.ofList_chars]
    cases hf : f t with
    | failure rest => exact .oracleFails (by rw [hrest, hf]; rfl)
    | success matched rest =>
      rw [hf] at hfair
      obtain ⟨x, hx⟩ := hfair
      exact ⟨x, hx.symm, .oracle (by rw [hrest, hf]; rfl) hx.symm⟩
  | unresolved name =>
    cases Option.some.inj hp
    exact .oracleFails rfl
  | anyLetter | anyNumber | one c | anyChar chars | anyCharBut chars =>
    cases Option.some.inj hp
    exact Step.char_derivedBy _ t
  | _ => cases hp

/-- The simpler form of a parser stands for the same expression. -/
theorem desugar_of_expand {p q : Parser} (hp : p.expand? = some q) : p.desugar = q.desugar := by
  cases p with
  | exactly count body => cases count <;> cases Option.some.inj hp <;> rfl
  | between | thenOptional | optionalThen | named =>
    cases Option.some.inj hp
    rfl
  | _ => cases hp

/-- Whatever becomes of the matches, a sequence stands for a sequence. -/
theorem Joins.desugar_eq {keep : List Char → List Char → List Char} {a b p : Parser}
    (hp : Joins keep a b p) : p.desugar = .seq a.desugar b.desugar := by
  cases hp <;> rfl

/-- A parser that calls a rule stands for the rule. -/
theorem desugar_of_target {p : Parser} {id : RuleId} (hp : p.target? = some id) :
    p.desugar = .rule id := by
  cases p <;> cases hp <;> rfl

end Parser

namespace Store

variable {s : Store} {p : Parser} {t : Text} {r : Run}

/-- A rule that is not there derives a failure. -/
theorem rule_fails {id : RuleId} {early : Prop} (hid : s.rule? id = none) (t : List Char) :
    Peg.Derives s.rules early (.rule id) t none := by
  have hrules : s.rules id = .never := by simp only [rules, hid]
  refine .rule ?_
  rw [hrules]
  exact .oracleFails rfl

/-- A run of an honest parser ends with what its expression derives. -/
theorem Runs.derivedBy (h : s.Runs p t r) (hp : s.Everywhere Parser.Honest p) :
    r.outcome.DerivedBy s.rules True p.desugar t := by
  induction h with
  | direct t hdirect => exact Parser.direct_derivedBy t hdirect hp.self
  | expand hexpand _ ih =>
    rw [Parser.desugar_of_expand hexpand]
    exact ih (hp.expand Parser.honest_neutral hexpand)
  | first b _ ih =>
    obtain ⟨x, hx, ha⟩ := ih (hp.child (by simp [Parser.children]))
    exact ⟨x, hx, .choiceFirst b.desugar ha⟩
  | second _ _ iha ihb =>
    have ha := iha (hp.child (by simp [Parser.children]))
    have hb := ihb (hp.child (by simp [Parser.children]))
    exact hb.imp fun _ hb => .choiceSecond ha hb
  | breaks hjoins _ ih =>
    rw [hjoins.desugar_eq]
    exact .seqFails _ (ih (hp.joins hjoins).1)
  | breaksLate hjoins _ _ iha ihb =>
    rw [hjoins.desugar_eq]
    obtain ⟨x, hx, ha⟩ := iha (hp.joins hjoins).1
    exact .seqFailsLate ha hx (ihb (hp.joins hjoins).2)
  | joins hjoins _ _ iha ihb =>
    rw [hjoins.desugar_eq]
    obtain ⟨x, hx, ha⟩ := iha (hp.joins hjoins).1
    obtain ⟨y, hy, hb⟩ := ihb (hp.joins hjoins).2
    exact ⟨x ++ y, by rw [hx, hy, List.append_assoc], .seq ha hx hb⟩
  | stop _ ih => exact ⟨[], rfl, .starStop (ih (hp.child (by simp [Parser.children])))⟩
  | last _ hsize ih => exact (ih (hp.child (by simp [Parser.children]))).last hsize
  | more _ hsize _ ihb ihrest =>
    obtain ⟨x, hx, hb⟩ := ihb (hp.child (by simp [Parser.children]))
    obtain ⟨y, hy, hloop⟩ := ihrest hp
    have hnil : x ≠ [] := by
      rintro rfl
      exact hsize (.inr (congrArg Text.size (Text.ext hx.symm)))
    exact ⟨x ++ y, by rw [hx, hy, List.append_assoc], .starMore hb hnil hx hloop⟩
  | never _ ih => exact .seqFails _ (ih (hp.child (by simp [Parser.children])))
  | once _ _ ihb ihloop =>
    obtain ⟨x, hx, hb⟩ := ihb (hp.child (by simp [Parser.children]))
    have hloop := ihloop (.intro trivial (fun c hc => hp.child hc) (by simp [Parser.target?]))
    exact hloop.imp fun _ hstar => hb.seq_star hstar
  | objected body he => exact .seqFails _ (.oracleFails (by simp [he]))
  | @admitted objection body t r he _ ih =>
    have hb := ih (hp.child (by simp [Parser.children]))
    have hpass : Peg.Derives s.rules True (.oracle fun t =>
        if (objection (.ofList t)).isNone then some t else none) t.chars (some []) :=
      .oracle (by simp [he]) rfl
    exact hb.imp fun _ hb => hpass.seq_nil hb
  | @dead p id t htarget hid =>
    rw [Parser.desugar_of_target htarget]
    exact rule_fails (by simp only [rule?, hid]) t.chars
  | missing t htarget _ hrule =>
    rw [Parser.desugar_of_target htarget]
    exact rule_fails hrule t.chars
  | @rule p id rule t o l htarget hrule _ ih =>
    rw [Parser.desugar_of_target htarget]
    have hrules : s.rules id = rule.body.desugar := by simp only [rules, hrule]
    exact (ih (hp.called htarget hrule)).imp fun _ hbody => .rule (hrules ▸ hbody)

end Store

/-- Parsers are parsing expressions: a run of an honest parser that comes to its end succeeds and
leaves a text exactly if its expression consumes the part before it, and fails exactly if its
expression fails. A loop is understood to end, without another try of its body, where nothing is
left. What derivations that never end a loop so can derive is no different. -/
theorem run_derives {s : Store} {p : Parser} {t : Text} {r : Run} {depth : Nat}
    (hp : s.Everywhere Parser.Honest p) (h : s.step depth p t = some r) :
    (∀ rest : Text, (∃ m, r.outcome = .success m rest) ↔
      ∃ x, t.chars = x ++ rest.chars ∧ p.desugar.Derives s.rules True t.chars (some x)) ∧
    (r.outcome.ok = false ↔ p.desugar.Derives s.rules True t.chars none) ∧
    (∀ o, p.desugar.Derives s.rules False t.chars o →
      p.desugar.Derives s.rules True t.chars o) := by
  have hderived := (Store.Runs.of_step h).derivedBy hp
  refine ⟨fun rest => ⟨?_, ?_⟩, ⟨?_, ?_⟩, fun o => Peg.Derives.mono False.elim⟩
  · rintro ⟨m, hm⟩
    rwa [hm] at hderived
  · rintro ⟨x, hx, hd⟩
    cases ho : r.outcome with
    | failure y =>
      rw [ho] at hderived
      cases hd.unique hderived
    | success m y =>
      rw [ho] at hderived
      obtain ⟨x', hx', hd'⟩ := hderived
      cases hd.unique hd'
      have hrest : y = rest := Text.ext (List.append_cancel_left (hx'.symm.trans hx))
      exact ⟨m, by rw [hrest]⟩
  · intro hok
    cases ho : r.outcome with
    | failure y => rwa [ho] at hderived
    | success m y => simp [ho, Outcome.ok] at hok
  · intro hd
    cases ho : r.outcome with
    | failure y => rfl
    | success m y =>
      rw [ho] at hderived
      obtain ⟨x, _, hd'⟩ := hderived
      cases hd.unique hd'

/-- The grammar of angle brackets leaves the letter after the brackets, as its expression does. -/
theorem run_derives_angles :
    let t : Text := .ofList ['⟨', '⟨', '⟩', '⟩', 'é']
    Store.angles.Everywhere Parser.Honest Store.anglesEntry ∧
      ∃ r, Store.angles.step 4 Store.anglesEntry t = some r ∧
        r.outcome = .success ['⟨', '⟨', '⟩', '⟩'] (.ofList ['é']) ∧
        ∃ x, t.chars = x ++ ['é'] ∧
          Store.anglesEntry.desugar.Derives Store.angles.rules True t.chars (some x) := by
  intro t
  have hp : Store.angles.Everywhere Parser.Honest Store.anglesEntry :=
    Store.everywhere_anglesEntry (fun _ _ => trivial) (fun _ _ => trivial) (fun _ => trivial)
      (fun _ _ _ => trivial) (fun _ => trivial)
  have h := @run_derives Store.angles Store.anglesEntry t _ 4 hp rfl
  exact ⟨hp, _, rfl, rfl, (h.1 (.ofList ['é'])).1 ⟨_, rfl⟩⟩

/-! ## Loops that end without another try -/

/-- A rule that is nothing but itself derives nothing. -/
theorem Peg.underivable_of_self {rules : RuleId → Peg} {early : Prop} {id : RuleId}
    (hid : rules id = .rule id) (t : List Char) (o : Option (List Char)) :
    ¬ Derives rules early (.rule id) t o := by
  have hno {e t o} (h : Derives rules early e t o) : e ≠ .rule id := by
    induction h with
    | rule _ ih =>
      intro he
      cases he
      exact ih hid
    | _ => exact fun he => by cases he
  exact fun h => hno h rfl

/-- Rules for any number of letters `a`, where the letter may also be a rule that is nothing but
itself. -/
def selfCalling {σ : Type} : List (Declaration σ) :=
  [⟨"letters", fun r => return .many0 (.one 'a' ||| (← r.rule "self"))⟩,
   ⟨"self", fun r => r.rule "self"⟩]

/-- On one letter the grammar succeeds, because its loop ends where nothing is left. Its expression
derives nothing there if a loop may only end with a failure or an empty match of its body: the body
would have to be tried on the empty text. -/
theorem run_without_derivation :
    ∃ (p : Parser) (site : Site Unit),
      Grammar.build selfCalling "letters" (.fresh .empty ()) = (.ok p, site) ∧
      site.store.Everywhere Parser.Honest p ∧
      (∃ r, site.store.run p (.ofList ['a']) = some r ∧
        r.outcome = .success ['a'] (.ofList [])) ∧
      ∀ o, ¬ p.desugar.Derives site.store.rules False ['a'] o := by
  let rules : Array Rule :=
    #[⟨"letters", .many0 (.orElse (.one 'a') (.reference "self" ⟨0, 1⟩))⟩,
      ⟨"self", .reference "self" ⟨0, 1⟩⟩]
  let store : Store := ⟨#[.ready rules]⟩
  have htable : store.table 0 = .ready rules := rfl
  have hself : store.rules ⟨0, 1⟩ = .rule ⟨0, 1⟩ := rfl
  have hletters : store.rules ⟨0, 0⟩ =
    .star (.choice (.char (· = 'a')) (.rule ⟨0, 1⟩)) := rfl
  refine ⟨.entry "letters" ⟨0, 0⟩, ⟨store, [.grammarBuilt 2 "letters"], [], ()⟩, rfl, ?_, ?_, ?_⟩
  · refine .of_table htable ?_ ?_
    · simp [Parser.All, Parser.Honest, Parser.CallsInto, Parser.target?]
    · simp [rules, Parser.All, Parser.Honest, Parser.CallsInto, Parser.target?]
  · have hdepth := store.le_depthFor (.ofList ['a'])
    exact ⟨_, Store.step_mono (show 2 ≤ store.depthFor (.ofList ['a']) by omega) rfl, rfl⟩
  · have hchoice {t o}
        (h : Peg.Derives store.rules False (.choice (.char (· = 'a')) (.rule ⟨0, 1⟩)) t o) :
        ∃ rest, t = 'a' :: rest ∧ o = some ['a'] := by
      cases h with
      | choiceFirst _ hchar =>
        cases hchar with
        | char rest hc => exact ⟨rest, by simpa using hc, by simpa using hc⟩
      | choiceSecond _ hrule => exact absurd hrule (Peg.underivable_of_self hself _ _)
    rintro o (_ | _ | _ | _ | _ | _ | _ | _ | _ | _ | _ | _ | _ | _ | _ | _ | _ | hloop)
    rw [hletters] at hloop
    cases hloop with
    | starStop hbody => simpa using hchoice hbody
    | starStill hbody => simpa using hchoice hbody
    | starMore hbody _ ht hrest =>
      obtain ⟨_, _, hx⟩ := hchoice hbody
      cases Option.some.inj hx
      obtain rfl := List.append_cancel_left (show ['a'] ++ [] = ['a'] ++ _ from ht)
      cases hrest with
      | starStop hbody => simpa using hchoice hbody
      | starStill hbody => simpa using hchoice hbody
      | starMore hbody => simpa using hchoice hbody
      | starEnd hearly => exact hearly

end Descent
