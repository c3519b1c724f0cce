import Descent.Parser.Run
import Descent.Proofs.Step

/-!
# Runs, without a depth

A run is granted a depth, and has no result if it would go deeper. This file says what the results
are without speaking of depths: `Store.Runs` has one rule for each way in which a run can end. A
parser runs to a result exactly when some depth suffices for it (`Store.runs_iff`), any greater
depth gives the same result (`Store.step_mono`), and there is no other result (`Store.Runs.unique`).
-/

namespace Descent

namespace Parser

/-- What a parser that neither has parts nor calls a rule makes of a text. -/
def direct? : Parser → Option (Text → Outcome)
  | eof => some Step.eof
  | empty => some (.success [])
  | whitespace => some (Step.span fun c => c = ' ' ∨ c = '\n' ∨ c = '\t')
  | anyLetter => some (Step.char Char.isAlpha)
  | anyNumber => some (Step.char Char.isDigit)
  | one c => some (Step.char (· = c))
  | literal text => some (Step.literal text)
  | pattern p => some (Step.found p.find)
  | anyChar chars => some (Step.char fun c => chars.contains c)
  | anyCharBut chars => some (Step.char fun c => !chars.contains c)
  | handmade _ run => some run
  | unresolved _ => some .failure
  | _ => none

/-- The parser that says the same in simpler terms. -/
def expand? : Parser → Option Parser
  | exactly 0 _ => some empty
  | exactly (count + 1) body => some (andThen body (exactly count body))
  | between inner opening closing => some (andThen (andThen opening inner) closing)
  | thenOptional a b => some (andThen a (orElse b empty))
  | optionalThen a b => some (andThen (orElse a empty) b)
  | named _ body => some body
  | _ => none

/-- The rule that a reference or an entry calls. -/
def target? : Parser → Option RuleId
  | reference _ rule => some rule
  | entry _ rule => some rule
  | _ => none

/-- A parser that runs `a` and then `b`, and makes one match of theirs with `keep`. -/
inductive Joins : (List Char → List Char → List Char) → Parser → Parser → Parser → Prop
  | andThen (a b : Parser) : Joins (· ++ ·) a b (andThen a b)
  | thenIgnore (a b : Parser) : Joins (fun m _ => m) a b (thenIgnore a b)
  | ignoreThen (a b : Parser) : Joins (fun _ m => m) a b (ignoreThen a b)

/-- What parsers without parts and calls have, and what choices, sequences, loops and objections have
from their parts, all parsers have if they have it from their simpler forms. -/
@[elab_as_elim]
theorem induction_on_forms {motive : Parser → Prop}
    (direct : ∀ {p f}, p.direct? = some f → motive p)
    (target : ∀ {p id}, p.target? = some id → motive p)
    (expand : ∀ {p q}, p.expand? = some q → motive q → motive p)
    (joins : ∀ {keep a b p}, Joins keep a b p → motive a → motive b → motive p)
    (orElse : ∀ {a b}, motive a → motive b → motive (.orElse a b))
    (many0 : ∀ {body}, motive body → motive (.many0 body))
    (many1 : ∀ {body}, motive body → motive (.many1 body))
    (guarded : ∀ {objection body}, motive body → motive (.guarded objection body))
    (p : Parser) : motive p := by
  have hempty : motive .empty := direct rfl
  induction p with
  | many0 body ih => exact many0 ih
  | many1 body ih => exact many1 ih
  | exactly count body ih =>
    induction count with
    | zero => exact expand rfl hempty
    | succ count ihCount => exact expand rfl (joins (.andThen ..) ih ihCount)
  | between inner opening closing ihInner ihOpening ihClosing =>
    exact expand rfl (joins (.andThen ..) (joins (.andThen ..) ihOpening ihInner) ihClosing)
  | orElse a b iha ihb => exact orElse iha ihb
  | andThen a b iha ihb | thenIgnore a b iha ihb | ignoreThen a b iha ihb =>
    exact joins (by constructor) iha ihb
  | thenOptional a b iha ihb => exact expand rfl (joins (.andThen ..) iha (orElse ihb hempty))
  | optionalThen a b iha ihb => exact expand rfl (joins (.andThen ..) (orElse iha hempty) ihb)
  | named name body ih => exact expand rfl ih
  | guarded objection body ih => exact guarded ih
  | reference name id | entry name id => exact target rfl
  | _ => exact direct rfl

/-! ## What a parser means, form by form -/

section

variable {limit : Nat} {call : RuleId → Step} {p q a b : Parser}

/-- A parser without parts means its function. -/
theorem meaning_of_direct {f : Text → Outcome} (hp : p.direct? = some f) :
    p.meaning limit call = Step.quiet f := by
  cases p with
  | eof | empty | whitespace | anyLetter | anyNumber | one | literal | pattern | anyChar | anyCharBut
  | handmade | unresolved =>
    cases Option.some.inj hp
    rfl
  | _ => cases hp

/-- A reference or entry means the call it makes. -/
theorem meaning_of_target {id : RuleId} (hp : p.target? = some id) :
    p.meaning limit call = call id := by
  cases p with
  | reference | entry =>
    cases Option.some.inj hp
    rfl
  | _ => cases hp

/-- A parser means what its simpler form means. -/
theorem meaning_of_expand (hp : p.expand? = some q) :
    p.meaning limit call = q.meaning limit call := by
  cases p with
  | exactly count body =>
    cases count with
    | zero =>
      cases Option.some.inj hp
      rfl
    | succ count =>
      cases Option.some.inj hp
      exact Step.exactly_succ count _
  | between inner opening closing =>
    cases Option.some.inj hp
    exact Step.between_eq ..
  | thenOptional a b =>
    cases Option.some.inj hp
    exact Step.thenOptional_eq ..
  | optionalThen a b =>
    cases Option.some.inj hp
    exact Step.optionalThen_eq ..
  | named name body =>
    cases Option.some.inj hp
    rfl
  | _ => cases hp

/-- A sequence means a sequence, whatever becomes of the matches. -/
theorem meaning_of_joins {keep : List Char → List Char → List Char} (hp : Joins keep a b p) :
    p.meaning limit call = Step.sequence keep (a.meaning limit call) (b.meaning limit call) := by
  cases hp <;> rfl

end

end Parser

namespace Store

/-- The rule under a number, if its table is ready and has one there. -/
def rule? (s : Store) (id : RuleId) : Option Rule :=
  match s.table id.table with
  | .ready rules => rules[id.slot]?
  | _ => none

/-- The run of a parser on a text, in a store, ends with a result. -/
inductive Runs (s : Store) : Parser → Text → Run → Prop
  /-- A parser without parts does what its function says. -/
  | direct {p f} (t : Text) (hp : p.direct? = some f) : Runs s p t ⟨f t, []⟩
  /-- A parser does what its simpler form does. -/
  | expand {p q t r} (hp : p.expand? = some q) (hq : Runs s q t r) : Runs s p t r
  /-- The first of two succeeds. -/
  | first {a t m x l} (b : Parser) (ha : Runs s a t ⟨.success m x, l⟩) :
      Runs s (.orElse a b) t ⟨.success m x, l⟩
  /-- The first of two fails, and the second decides. -/
  | second {a b t x l o l'} (ha : Runs s a t ⟨.failure x, l⟩) (hb : Runs s b t ⟨o, l'⟩) :
      Runs s (.orElse a b) t ⟨o, l ++ l'⟩
  /-- A sequence fails with its first part. -/
  | breaks {keep a b p t x l} (hp : Parser.Joins keep a b p)
      (ha : Runs s a t ⟨.failure x, l⟩) : Runs s p t ⟨.failure t, l⟩
  /-- A sequence fails with its second part. -/
  | breaksLate {keep a b p t m x l y l'} (hp : Parser.Joins keep a b p)
      (ha : Runs s a t ⟨.success m x, l⟩) (hb : Runs s b x ⟨.failure y, l'⟩) :
      Runs s p t ⟨.failure t, l ++ l'⟩
  /-- Both parts of a sequence succeed. -/
  | joins {keep a b p t m x l n y l'} (hp : Parser.Joins keep a b p)
      (ha : Runs s a t ⟨.success m x, l⟩) (hb : Runs s b x ⟨.success n y, l'⟩) :
      Runs s p t ⟨.success (keep m n) y, l ++ l'⟩
  /-- A loop ends where its body fails. -/
  | stop {body t x l} (hb : Runs s body t ⟨.failure x, l⟩) :
      Runs s (.many0 body) t ⟨.success [] t, l⟩
  /-- A loop ends with a repetition that leaves nothing, or leaves as much as it has found. -/
  | last {body t m x l} (hb : Runs s body t ⟨.success m x, l⟩)
      (hx : x.size = 0 ∨ x.size = t.size) : Runs s (.many0 body) t ⟨.success m x, l⟩
  /-- A loop goes on after any other repetition. -/
  | more {body t m x l n y l'} (hb : Runs s body t ⟨.success m x, l⟩)
      (hx : ¬(x.size = 0 ∨ x.size = t.size))
      (hrest : Runs s (.many0 body) x ⟨.success n y, l'⟩) :
      Runs s (.many0 body) t ⟨.success (m ++ n) y, l ++ l'⟩
  /-- A loop that must go round once fails where its body fails. -/
  | never {body t x l} (hb : Runs s body t ⟨.failure x, l⟩) :
      Runs s (.many1 body) t ⟨.failure t, l⟩
  /-- A loop that must go round once is like any loop where its body succeeds. -/
  | once {body t m x l r} (hb : Runs s body t ⟨.success m x, l⟩)
      (hloop : Runs s (.many0 body) t r) : Runs s (.many1 body) t r
  /-- An objection is reported, and nothing runs. -/
  | objected {objection t e} (body : Parser) (he : objection t = some e) :
      Runs s (.guarded objection body) t ⟨.failure t, [e]⟩
  /-- Without an objection the body runs. -/
  | admitted {objection body t r} (he : objection t = none) (hb : Runs s body t r) :
      Runs s (.guarded objection body) t r
  /-- A rule whose table is gone fails with a warning. -/
  | dead {p id} (t : Text) (hp : p.target? = some id) (hid : s.table id.table = .dropped) :
      Runs s p t ⟨.failure t, [.deadReference id.slot]⟩
  /-- A rule that its table does not have, or not yet, fails. -/
  | missing {p id} (t : Text) (hp : p.target? = some id) (hid : s.table id.table ≠ .dropped)
      (hrule : s.rule? id = none) : Runs s p t ⟨.failure t, []⟩
  /-- A rule does what its body does, between two events. -/
  | rule {p id rule t o l} (hp : p.target? = some id) (hrule : s.rule? id = some rule)
      (hbody : Runs s rule.body t ⟨o, l⟩) :
      Runs s p t ⟨o, .enterRule rule.name t.size :: l ++
        [.exitRule rule.name o.ok (o.consumed t)]⟩

variable {s : Store} {p q a b body : Parser} {t : Text} {r : Run} {limit depth : Nat}
  {id : RuleId} {rule : Rule} {R R' : Parser → Step}

/-! ## What runs at some depth is a run -/

/-- What calls of rules do in a run of the given depth. -/
def calls (s : Store) : Nat → RuleId → Step
  | 0 => fun _ _ => none
  | depth + 1 => s.call (s.step depth)

/-- A step at some depth is a meaning, with that depth as the limit on loops. -/
theorem step_eq_meaning : s.step depth p t = p.meaning depth (s.calls depth) t := by
  cases depth <;> rfl

/-- A call of a rule whose table is gone leaves a warning. -/
theorem call_of_dropped (hid : s.table id.table = .dropped) :
    s.call R id t = some ⟨.failure t, [.deadReference id.slot]⟩ := by
  simp [call, hid]

/-- A call of a rule that its table does not have fails. -/
theorem call_of_missing (hid : s.table id.table ≠ .dropped) (hrule : s.rule? id = none) :
    s.call R id t = some ⟨.failure t, []⟩ := by
  unfold call
  unfold rule? at hrule
  cases htable : s.table id.table with
  | dropped => exact absurd htable hid
  | forming => rfl
  | ready rules => simp only [show rules[id.slot]? = none by simpa only [htable] using hrule]

/-- Any other call runs the body of the rule. -/
theorem call_of_rule (hrule : s.rule? id = some rule) :
    s.call R id t = Step.rule rule.name (R rule.body) t := by
  unfold call
  unfold rule? at hrule
  cases htable : s.table id.table with
  | dropped => simp [htable] at hrule
  | forming => simp [htable] at hrule
  | ready rules =>
    simp only [show rules[id.slot]? = some rule by simpa only [htable] using hrule]

/-- A sequence of steps that are runs is a run of a sequence. -/
theorem Runs.of_joins {A B : Step} {keep : List Char → List Char → List Char}
    (hp : Parser.Joins keep a b p) (hA : ∀ {t r}, A t = some r → s.Runs a t r)
    (hB : ∀ {t r}, B t = some r → s.Runs b t r) (h : Step.sequence keep A B t = some r) :
    s.Runs p t r := by
  rcases Step.sequence_cases h with ⟨x, l, ha, rfl⟩ | ⟨m, x, l, y, l', ha, hb, rfl⟩ |
    ⟨m, x, l, n, y, l', ha, hb, rfl⟩
  · exact .breaks hp (hA ha)
  · exact .breaksLate hp (hA ha) (hB hb)
  · exact .joins hp (hA ha) (hB hb)

/-- A choice of steps that are runs is a run of a choice. -/
theorem Runs.of_orElse {A B : Step} (hA : ∀ {t r}, A t = some r → s.Runs a t r)
    (hB : ∀ {t r}, B t = some r → s.Runs b t r) (h : Step.orElse A B t = some r) :
    s.Runs (.orElse a b) t r := by
  rcases Step.orElse_cases h with ⟨m, x, l, ha, rfl⟩ | ⟨x, l, o, l', ha, hb, rfl⟩
  · exact .first b (hA ha)
  · exact .second (hA ha) (hB hb)

/-- A loop over a step that is a run is a run of a loop. -/
theorem Runs.of_many0 {B : Step} (hB : ∀ {t r}, B t = some r → s.Runs body t r)
    (h : Step.many0 limit B t = some r) : s.Runs (.many0 body) t r := by
  induction limit generalizing t r with
  | zero => simp [Step.many0, Step.repeatFrom] at h
  | succ limit ih =>
    rcases Step.many0_cases h with ⟨x, l, hb, rfl⟩ | ⟨m, x, l, hb, hx, rfl⟩ |
      ⟨m, x, l, n, y, l', hb, hx, hrest, rfl⟩
    · exact .stop (hB hb)
    · exact .last (hB hb) hx
    · exact .more (hB hb) hx (ih hrest)

/-- A loop that must go round once, over a step that is a run, is a run of such a loop. -/
theorem Runs.of_many1 {B : Step} (hB : ∀ {t r}, B t = some r → s.Runs body t r)
    (h : Step.many1 limit B t = some r) : s.Runs (.many1 body) t r := by
  obtain ⟨k, rfl, ⟨x, l, hb, rfl⟩ | ⟨m, x, l, hb, hloop⟩⟩ := Step.many1_cases h
  · exact .never (hB hb)
  · exact .once (hB hb) (.of_many0 hB hloop)

/-- A call is a run of the parser that makes it, if bodies are runs. -/
theorem Runs.of_call (hp : p.target? = some id) (hR : ∀ {p t r}, R p t = some r → s.Runs p t r)
    (h : s.call R id t = some r) : s.Runs p t r := by
  by_cases hid : s.table id.table = .dropped
  · rw [call_of_dropped hid] at h
    cases Option.some.inj h
    exact .dead t hp hid
  · cases hrule : s.rule? id with
    | none =>
      rw [call_of_missing hid hrule] at h
      cases Option.some.inj h
      exact .missing t hp hid hrule
    | some rule =>
      rw [call_of_rule hrule] at h
      obtain ⟨o, l, hbody, rfl⟩ := Step.rule_cases h
      exact .rule hp hrule (hR hbody)

/-- If calls of rules are runs, what a parser means is a run. -/
theorem Runs.of_meaning {call : RuleId → Step}
    (hcall : ∀ {p id t r}, p.target? = some id → call id t = some r → s.Runs p t r)
    (h : p.meaning limit call t = some r) : s.Runs p t r := by
  induction p using Parser.induction_on_forms generalizing t r with
  | direct hp =>
    rw [Parser.meaning_of_direct hp] at h
    cases Option.some.inj h
    exact .direct t hp
  | target hp =>
    rw [Parser.meaning_of_target hp] at h
    exact hcall hp h
  | expand hp ih =>
    rw [Parser.meaning_of_expand hp] at h
    exact .expand hp (ih h)
  | joins hp iha ihb =>
    rw [Parser.meaning_of_joins hp] at h
    exact .of_joins hp iha ihb h
  | orElse iha ihb => exact .of_orElse iha ihb h
  | many0 ih => exact .of_many0 ih h
  | many1 ih => exact .of_many1 ih h
  | @guarded objection body ih =>
    have h : Step.guarded objection (body.meaning limit call) t = some r := h
    unfold Step.guarded at h
    cases he : objection t with
    | none => exact .admitted he (ih (by simpa only [he] using h))
    | some e =>
      simp only [he, Option.some.injEq] at h
      subst h
      exact .objected body he

/-- What a parser does at some depth is a run. -/
theorem Runs.of_step (h : s.step depth p t = some r) : s.Runs p t r := by
  induction depth generalizing p t r with
  | zero =>
    rw [step_eq_meaning] at h
    exact .of_meaning (fun _ hcall => by simp [calls] at hcall) h
  | succ depth ih =>
    rw [step_eq_meaning] at h
    exact .of_meaning (fun hp hcall => .of_call hp ih hcall) h

/-! ## A greater depth changes no result -/

/-- Greater limits on repetitions and calls that answer more often leave every result as it was. -/
theorem meaning_below {call call' : RuleId → Step} {limit limit' : Nat} (hlimit : limit ≤ limit')
    (hcall : ∀ id, Step.Below (call id) (call' id)) (p : Parser) :
    Step.Below (p.meaning limit call) (p.meaning limit' call') := by
  induction p using Parser.induction_on_forms with
  | direct hp =>
    rw [Parser.meaning_of_direct hp, Parser.meaning_of_direct hp]
    exact fun h => h
  | target hp =>
    rw [Parser.meaning_of_target hp, Parser.meaning_of_target hp]
    exact hcall _
  | expand hp ih =>
    rw [Parser.meaning_of_expand hp, Parser.meaning_of_expand hp]
    exact ih
  | joins hp iha ihb =>
    rw [Parser.meaning_of_joins hp, Parser.meaning_of_joins hp]
    exact Step.sequence_below iha ihb
  | orElse iha ihb => exact Step.orElse_below iha ihb
  | many0 ih => exact Step.many0_below ih hlimit
  | many1 ih => exact Step.many1_below ih hlimit
  | @guarded objection body ih =>
    intro t r h
    change Step.guarded objection _ t = some r at h ⊢
    unfold Step.guarded at h ⊢
    cases he : objection t with
    | none => exact ih (by simpa only [he] using h)
    | some e => simpa only [he] using h

/-- Calls answer more often if bodies do. -/
theorem call_below (hR : ∀ p, Step.Below (R p) (R' p)) (id : RuleId) :
    Step.Below (s.call R id) (s.call R' id) := by
  intro t r h
  by_cases hid : s.table id.table = .dropped
  · rwa [call_of_dropped hid] at h ⊢
  · cases hrule : s.rule? id with
    | none => rwa [call_of_missing hid hrule] at h ⊢
    | some rule =>
      rw [call_of_rule hrule] at h ⊢
      exact Step.rule_below rule.name (hR rule.body) h

/-- One more level of depth leaves every result as it was. -/
theorem step_below_succ (depth : Nat) (p : Parser) :
    Step.Below (s.step depth p) (s.step (depth + 1) p) := by
  induction depth generalizing p with
  | zero =>
    exact meaning_below (Nat.zero_le _) (fun id => fun h => by simp at h) p
  | succ depth ih => exact meaning_below (Nat.le_succ _) (call_below ih) p

/-- A result at some depth is the result at any greater depth. -/
theorem step_mono {depth' : Nat} (hdepth : depth ≤ depth') (h : s.step depth p t = some r) :
    s.step depth' p t = some r := by
  induction hdepth with
  | refl => exact h
  | step _ ih => exact step_below_succ _ p ih

/-! ## Every run happens at some depth -/

/-- A parser without parts needs no depth. -/
theorem step_of_direct {f : Text → Outcome} (hp : p.direct? = some f) :
    s.step depth p t = some ⟨f t, []⟩ := by
  rw [step_eq_meaning, Parser.meaning_of_direct hp]
  rfl

/-- A parser and its simpler form do the same at every depth. -/
theorem step_of_expand (hp : p.expand? = some q) : s.step depth p t = s.step depth q t := by
  rw [step_eq_meaning, step_eq_meaning, Parser.meaning_of_expand hp]

/-- A sequence runs its parts at its own depth. -/
theorem step_of_joins {keep : List Char → List Char → List Char} (hp : Parser.Joins keep a b p) :
    s.step depth p t = Step.sequence keep (s.step depth a) (s.step depth b) t := by
  cases hp <;> cases depth <;> rfl

/-- A choice runs its parts at its own depth. -/
theorem step_orElse : s.step depth (.orElse a b) t =
    Step.orElse (s.step depth a) (s.step depth b) t := by
  cases depth <;> rfl

/-- The depth of a loop is also its limit. -/
theorem step_many0 : s.step depth (.many0 body) t = Step.many0 depth (s.step depth body) t := by
  cases depth <;> rfl

/-- The depth of a loop that must go round once is also its limit. -/
theorem step_many1 : s.step depth (.many1 body) t = Step.many1 depth (s.step depth body) t := by
  cases depth <;> rfl

/-- The body behind an objection runs at the same depth. -/
theorem step_guarded {objection : Text → Option Event} : s.step depth (.guarded objection body) t =
    Step.guarded objection (s.step depth body) t := by
  cases depth <;> rfl

/-- A reference or entry is the call it makes. -/
theorem step_of_target (hp : p.target? = some id) :
    s.step depth p t = s.calls depth id t := by
  rw [step_eq_meaning, Parser.meaning_of_target hp]

/-- A run comes to its end at some depth. -/
theorem Runs.exists_step (h : s.Runs p t r) : ∃ depth, s.step depth p t = some r := by
  induction h with
  | direct t hp => exact ⟨0, step_of_direct hp⟩
  | expand hp _ ih =>
    obtain ⟨depth, hq⟩ := ih
    exact ⟨depth, by rw [step_of_expand hp, hq]⟩
  | first b _ ih =>
    obtain ⟨depth, ha⟩ := ih
    exact ⟨depth, by simp [step_orElse, Step.orElse, ha, Outcome.ok]⟩
  | second _ _ iha ihb =>
    obtain ⟨i, ha⟩ := iha
    obtain ⟨j, hb⟩ := ihb
    have ha := step_mono (Nat.le_max_left i j) ha
    have hb := step_mono (Nat.le_max_right i j) hb
    exact ⟨max i j, by simp [step_orElse, Step.orElse, ha, hb, Outcome.ok]⟩
  | breaks hp _ ih =>
    obtain ⟨depth, ha⟩ := ih
    exact ⟨depth, by simp [step_of_joins hp, Step.sequence, ha]⟩
  | breaksLate hp _ _ iha ihb | joins hp _ _ iha ihb =>
    obtain ⟨i, ha⟩ := iha
    obtain ⟨j, hb⟩ := ihb
    have ha := step_mono (Nat.le_max_left i j) ha
    have hb := step_mono (Nat.le_max_right i j) hb
    exact ⟨max i j, by simp [step_of_joins hp, Step.sequence, ha, hb]⟩
  | stop _ ih =>
    obtain ⟨depth, hb⟩ := ih
    have hb := step_mono (Nat.le_succ depth) hb
    exact ⟨depth + 1, by rw [step_many0, Step.many0_stop depth hb]⟩
  | last _ hx ih =>
    obtain ⟨depth, hb⟩ := ih
    have hb := step_mono (Nat.le_succ depth) hb
    exact ⟨depth + 1, by rw [step_many0, Step.many0_last depth hb hx]⟩
  | more _ hx _ ihb ihrest =>
    obtain ⟨i, hb⟩ := ihb
    obtain ⟨j, hrest⟩ := ihrest
    have hb := step_mono (show i ≤ max i j + 1 by omega) hb
    rw [step_many0] at hrest
    have hrest := Step.many0_below (step_mono (show j ≤ max i j + 1 by omega))
      (show j ≤ max i j by omega) hrest
    exact ⟨max i j + 1, by rw [step_many0, Step.many0_more hb hx hrest]⟩
  | never _ ih =>
    obtain ⟨depth, hb⟩ := ih
    have hb := step_mono (Nat.le_succ depth) hb
    exact ⟨depth + 1, by rw [step_many1, Step.many1_of_failure depth hb]⟩
  | once _ _ ihb ihloop =>
    obtain ⟨i, hb⟩ := ihb
    obtain ⟨j, hloop⟩ := ihloop
    have hb := step_mono (show i ≤ max i j + 1 by omega) hb
    have hloop := step_mono (show j ≤ max i j + 1 by omega) hloop
    exact ⟨max i j + 1, by rw [step_many1, Step.many1_of_success _ hb, ← step_many0, hloop]⟩
  | objected body he => exact ⟨0, by simp [step_guarded, Step.guarded, he]⟩
  | admitted he _ ih =>
    obtain ⟨depth, hb⟩ := ih
    exact ⟨depth, by simp [step_guarded, Step.guarded, he, hb]⟩
  | dead t hp hid => exact ⟨1, by rw [step_of_target hp, calls, call_of_dropped hid]⟩
  | missing t hp hid hrule =>
    exact ⟨1, by rw [step_of_target hp, calls, call_of_missing hid hrule]⟩
  | rule hp hrule _ ih =>
    obtain ⟨depth, hbody⟩ := ih
    exact ⟨depth + 1, by
      rw [step_of_target hp, calls, call_of_rule hrule]
      simp [Step.rule, hbody]⟩

/-- The runs of a parser are its results at the depths that suffice. -/
theorem runs_iff : s.Runs p t r ↔ ∃ depth, s.step depth p t = some r :=
  ⟨Runs.exists_step, fun ⟨_, h⟩ => .of_step h⟩

/-- The run of a parser is the run of its simpler form. -/
theorem Runs.simpler (h : s.Runs p t r) (hp : p.expand? = some q) : s.Runs q t r := by
  obtain ⟨depth, hdepth⟩ := h.exists_step
  rw [step_of_expand hp] at hdepth
  exact .of_step hdepth

/-- A run has one result. -/
theorem Runs.unique {r' : Run} (h : s.Runs p t r) (h' : s.Runs p t r') : r = r' := by
  obtain ⟨i, hi⟩ := h.exists_step
  obtain ⟨j, hj⟩ := h'.exists_step
  have hi := step_mono (Nat.le_max_left i j) hi
  have hj := step_mono (Nat.le_max_right i j) hj
  exact Option.some.inj (hi.symm.trans hj)

/-- A run of a sequence is made of runs of its parts. -/
theorem Runs.joins_cases {keep : List Char → List Char → List Char} (h : s.Runs p t r)
    (hp : Parser.Joins keep a b p) :
    (∃ x l, s.Runs a t ⟨.failure x, l⟩ ∧ r = ⟨.failure t, l⟩) ∨
    (∃ m x l y l', s.Runs a t ⟨.success m x, l⟩ ∧ s.Runs b x ⟨.failure y, l'⟩ ∧
      r = ⟨.failure t, l ++ l'⟩) ∨
    (∃ m x l n y l', s.Runs a t ⟨.success m x, l⟩ ∧ s.Runs b x ⟨.success n y, l'⟩ ∧
      r = ⟨.success (keep m n) y, l ++ l'⟩) := by
  obtain ⟨depth, hdepth⟩ := h.exists_step
  rw [step_of_joins hp] at hdepth
  rcases Step.sequence_cases hdepth with ⟨x, l, ha, rfl⟩ | ⟨m, x, l, y, l', ha, hb, rfl⟩ |
    ⟨m, x, l, n, y, l', ha, hb, rfl⟩
  · exact .inl ⟨x, l, .of_step ha, rfl⟩
  · exact .inr (.inl ⟨m, x, l, y, l', .of_step ha, .of_step hb, rfl⟩)
  · exact .inr (.inr ⟨m, x, l, n, y, l', .of_step ha, .of_step hb, rfl⟩)

/-- A run of a choice is one of the first parser, or ones of both. -/
theorem Runs.orElse_cases (h : s.Runs (.orElse a b) t r) :
    (∃ m x l, s.Runs a t ⟨.success m x, l⟩ ∧ r = ⟨.success m x, l⟩) ∨
    (∃ x l o l', s.Runs a t ⟨.failure x, l⟩ ∧ s.Runs b t ⟨o, l'⟩ ∧ r = ⟨o, l ++ l'⟩) := by
  obtain ⟨depth, hdepth⟩ := h.exists_step
  rw [step_orElse] at hdepth
  rcases Step.orElse_cases hdepth with ⟨m, x, l, ha, rfl⟩ | ⟨x, l, o, l', ha, hb, rfl⟩
  · exact .inl ⟨m, x, l, .of_step ha, rfl⟩
  · exact .inr ⟨x, l, o, l', .of_step ha, .of_step hb, rfl⟩

/-- The run of a parser without parts is what its function says. -/
theorem Runs.eq_direct {f : Text → Outcome} (h : s.Runs p t r) (hp : p.direct? = some f) :
    r = ⟨f t, []⟩ :=
  h.unique (.direct t hp)

/-- A run under an objection that is not raised is a run of the body. -/
theorem Runs.guarded_cases {objection : Text → Option Event}
    (h : s.Runs (.guarded objection body) t r) :
    (∃ e, objection t = some e ∧ r = ⟨.failure t, [e]⟩) ∨
    (objection t = none ∧ s.Runs body t r) := by
  cases h with
  | objected _ he => exact .inl ⟨_, he, rfl⟩
  | admitted he hb => exact .inr ⟨he, hb⟩
  | _ => contradiction

/-- A run of a rule that is there is a run of its body, between two events. -/
theorem Runs.rule_cases (h : s.Runs p t r) (hp : p.target? = some id)
    (hrule : s.rule? id = some rule) : ∃ o l, s.Runs rule.body t ⟨o, l⟩ ∧
      r = ⟨o, .enterRule rule.name t.size :: l ++ [.exitRule rule.name o.ok (o.consumed t)]⟩ := by
  obtain ⟨depth, hdepth⟩ := h.exists_step
  cases depth with
  | zero => simp [step_of_target hp, calls] at hdepth
  | succ depth =>
    rw [step_of_target hp, calls, call_of_rule hrule] at hdepth
    obtain ⟨o, l, hbody, rfl⟩ := Step.rule_cases hdepth
    exact ⟨o, l, .of_step hbody, rfl⟩

/-- Whatever calls a rule that is there does what the body of the rule does, between two events. -/
theorem runs_target_iff (hp : p.target? = some id) (hrule : s.rule? id = some rule) :
    s.Runs p t r ↔ ∃ o l, s.Runs rule.body t ⟨o, l⟩ ∧
      r = ⟨o, .enterRule rule.name t.size :: l ++ [.exitRule rule.name o.ok (o.consumed t)]⟩ := by
  refine ⟨fun h => h.rule_cases hp hrule, ?_⟩
  rintro ⟨o, l, hbody, rfl⟩
  exact .rule hp hrule hbody

/-- Whatever calls the same rule does the same. -/
theorem runs_congr_target (hp : p.target? = some id) (hq : q.target? = some id) :
    s.Runs p t r ↔ s.Runs q t r := by
  simp only [runs_iff, step_of_target hp, step_of_target hq]

/-- A loop begins with the repetition that has been tried, and is over or goes on with what it has
left. -/
theorem Runs.many0_of_success {m : List Char} {x : Text} {l : Log}
    (h : s.Runs (.many0 body) t r) (hb : s.Runs body t ⟨.success m x, l⟩) :
    r = ⟨.success m x, l⟩ ∨ ∃ n y l', s.Runs (.many0 body) x ⟨.success n y, l'⟩ ∧
      r = ⟨.success (m ++ n) y, l ++ l'⟩ := by
  cases h with
  | stop hfail => cases hb.unique hfail
  | last hb' =>
    cases hb.unique hb'
    exact .inl rfl
  | more hb' _ hrest =>
    cases hb.unique hb'
    exact .inr ⟨_, _, _, hrest, rfl⟩
  | _ => contradiction

/-- A run is granted at least this depth, however short the text. -/
theorem le_depthFor (s : Store) (t : Text) : 0x100000000 ≤ s.depthFor t := by
  unfold depthFor
  calc 0x100000000 ≤ s.ruleCount + 0x100000000 := Nat.le_add_left _ _
    _ ≤ (s.ruleCount + 0x100000000) * (t.size + 2) := Nat.le_mul_of_pos_right _ (by omega)

/-- A run is deep enough for a call. -/
theorem run_of_target (hp : p.target? = some id) (t : Text) :
    ∃ depth, s.run p t = s.call (s.step depth) id t := by
  have hdepth : 1 ≤ s.depthFor t := Nat.le_trans (by decide) (s.le_depthFor t)
  obtain ⟨depth, hdepth⟩ := Nat.exists_eq_add_of_le' hdepth
  exact ⟨depth, by rw [run, step_of_target hp, hdepth, calls]⟩

end Store

end Descent
