import Descent.Proofs.Termination

/-!
# Rules that take something

Most rules take something whenever they succeed, and this can be read off their bodies, if it is so
for all rules of a table. Then it can also be read off which rules a body may call first, so that
the layers of the table can be checked on the rules as they are written (`Store.Layered.of_takes`).
-/

namespace Descent

namespace Parser

/-- The parser takes something whenever it succeeds, if all rules do. -/
def takes : Parser → Bool
  | whitespace => true
  | anyLetter => true
  | anyNumber => true
  | one _ => true
  | literal text => !text.isEmpty
  | anyChar _ => true
  | anyCharBut _ => true
  | many1 body => body.takes
  | exactly count body => count != 0 && body.takes
  | between inner opening closing => opening.takes || inner.takes || closing.takes
  | orElse a b => a.takes && b.takes
  | andThen a b => a.takes || b.takes
  | thenOptional a _ => a.takes
  | optionalThen _ b => b.takes
  | thenIgnore a b => a.takes || b.takes
  | ignoreThen a b => a.takes || b.takes
  | named _ body => body.takes
  | guarded _ body => body.takes
  | reference .. => true
  | unresolved _ => true
  | entry .. => true
  | _ => false

/-- The rules that the parser may call before it has taken anything, if all rules take something. -/
def heads : Parser → List RuleId
  | many0 body => body.heads
  | many1 body => body.heads
  | exactly _ body => body.heads
  | between inner opening closing =>
    opening.heads ++ if opening.takes then [] else
      inner.heads ++ if inner.takes then [] else closing.heads
  | orElse a b => a.heads ++ b.heads
  | andThen a b => a.heads ++ if a.takes then [] else b.heads
  | thenOptional a b => a.heads ++ if a.takes then [] else b.heads
  | optionalThen a b => a.heads ++ b.heads
  | thenIgnore a b => a.heads ++ if a.takes then [] else b.heads
  | ignoreThen a b => a.heads ++ if a.takes then [] else b.heads
  | named _ body => body.heads
  | guarded _ body => body.heads
  | reference _ rule => [rule]
  | entry _ rule => [rule]
  | _ => []

/-- The simpler form of a parser that takes something takes something. -/
theorem takes_expand {p q : Parser} (hp : p.expand? = some q) (htakes : p.takes = true) :
    q.takes = true := by
  cases p with
  | exactly count body =>
    cases count with
    | zero => simp [takes] at htakes
    | succ count =>
      cases Option.some.inj hp
      simp_all [takes]
  | between | thenOptional | optionalThen | named =>
    cases Option.some.inj hp
    simp_all [takes]
  | _ => cases hp

/-- A sequence that takes something has a part that does. -/
theorem Joins.takes {keep : List Char → List Char → List Char} {a b p : Parser}
    (hp : Joins keep a b p) (htakes : p.takes = true) : a.takes = true ∨ b.takes = true := by
  cases hp <;> simpa [Parser.takes] using htakes

/-- A character that is matched is taken. -/
theorem char_takes {accept : Char → Bool} {t x : Text} {m : List Char}
    (h : Step.char accept t = .success m x) : x.size < t.size := by
  unfold Step.char at h
  cases hchar : t.uncons? with
  | none => simp [hchar] at h
  | some pair =>
    obtain ⟨c, rest⟩ := pair
    have hpos := c.utf8Size_pos
    have hsize : t.size = utf8Size [c] + rest.size :=
      Text.size_eq_add (Text.uncons?_eq_some_iff.1 hchar)
    rw [utf8Size_cons] at hsize
    simp only [hchar] at h
    split at h
    · cases h
      omega
    · cases h

/-- An outcome that matches something and nothing but what it takes has taken something. -/
theorem lt_of_exact {t x : Text} {m : List Char} (h : (Outcome.success m x).Exact t)
    (hm : m ≠ []) : x.size < t.size := by
  have hpos : 0 < utf8Size m := Nat.pos_of_ne_zero fun hzero => hm (utf8Size_eq_zero_iff.1 hzero)
  have hsize : t.size = utf8Size m + x.size := Text.size_eq_add h.symm
  omega

/-- A parser without parts that should take something does. -/
theorem direct_takes {p : Parser} {f : Text → Outcome} {t x : Text} {m : List Char}
    (hp : p.direct? = some f) (htakes : p.takes = true) (hf : f t = .success m x) :
    x.size < t.size := by
  cases p with
  | whitespace =>
    cases Option.some.inj hp
    have hexact := Step.span_exact (fun c => c = ' ' ∨ c = '\n' ∨ c = '\t') t
    rw [hf] at hexact
    refine lt_of_exact hexact fun hm => ?_
    simp only [Step.span] at hf
    split at hf
    · cases hf
    next hsome =>
      cases hf
      rw [hm] at hsome
      exact hsome rfl
  | literal text =>
    cases Option.some.inj hp
    have hexact := Step.literal_exact text t
    rw [hf] at hexact
    refine lt_of_exact hexact fun hm => ?_
    unfold Step.literal at hf
    split at hf
    · cases hf
      simp [takes, hm] at htakes
    · cases hf
  | unresolved name =>
    cases Option.some.inj hp
    cases hf
  | anyLetter | anyNumber | one c | anyChar chars | anyCharBut chars =>
    cases Option.some.inj hp
    exact char_takes hf
  | eof | empty | pattern q | handmade name run => cases htakes
  | _ => cases hp

end Parser

namespace Store

variable {s : Store} {table : Nat} {rules : Array Rule} {p : Parser} {t : Text} {r : Run}

/-- Where all rules take something, so does every parser that should. -/
theorem Runs.takes (htable : s.table table = .ready rules)
    (hrules : ∀ rule ∈ rules.toList, rule.body.takes = true) (h : s.Runs p t r)
    (hp : s.Everywhere (Inside table) p) (htakes : p.takes = true) :
    ∀ m x, r.outcome = .success m x → x.size < t.size := by
  have hshrinks {q t m x l} (hq : s.Everywhere (Inside table) q)
      (hrun : s.Runs q t ⟨.success m x, l⟩) : x.size ≤ t.size :=
    hrun.size_le fun part hpart => (hq part hpart).1
  induction h with
  | direct t hdirect => exact fun _ _ hx => Parser.direct_takes hdirect htakes hx
  | expand hexpand _ ih =>
    exact ih (hp.expand inside_neutral hexpand) (Parser.takes_expand hexpand htakes)
  | first b _ ih =>
    have hboth := Bool.and_eq_true_iff.1 htakes
    exact ih (hp.child (by simp [Parser.children])) hboth.1
  | second _ _ _ ih =>
    have hboth := Bool.and_eq_true_iff.1 htakes
    exact ih (hp.child (by simp [Parser.children])) hboth.2
  | joins hjoins ha hb iha ihb =>
    intro m x hx
    cases hx
    obtain ⟨hpa, hpb⟩ := hp.joins hjoins
    have hfirst := hshrinks hpa ha
    have hsecond := hshrinks hpb hb
    rcases hjoins.takes htakes with htakesa | htakesb
    · have hlt := iha hpa htakesa _ _ rfl
      omega
    · have hlt := ihb hpb htakesb _ _ rfl
      omega
  | once hb hloop ihb _ =>
    intro m x hx
    have hbody := hp.child (List.mem_singleton.2 rfl)
    have hlt := ihb hbody htakes _ _ rfl
    rcases hloop.many0_of_success hb with rfl | ⟨n, y, l', hrest, rfl⟩
    · cases hx
      exact hlt
    · cases hx
      have hloop : s.Everywhere (Inside table) (.many0 _) :=
        .intro ⟨trivial, hp.self.2⟩ (fun c hc => hp.child hc) (by simp [Parser.target?])
      exact Nat.lt_of_le_of_lt (hshrinks hloop hrest) hlt
  | admitted _ _ ih => exact ih (hp.child (by simp [Parser.children])) htakes
  | rule htarget hrule _ ih =>
    have hid := hp.self.2 _ htarget
    have hslot := hrule
    simp only [rule?, hid, htable] at hslot
    exact ih (hp.called htarget hrule)
      (hrules _ (Array.mem_toList_iff.2 (Array.mem_of_getElem? hslot)))
  | stop | last | more => cases htakes
  | breaks | breaksLate | never | objected | dead | missing =>
    intro m x hx
    cases hx

/-- Where all rules take something, what a parser calls first is among the heads that are written in
it. -/
theorem Heads.mem_heads (htable : s.table table = .ready rules)
    (hinside : ∀ rule ∈ rules.toList, rule.body.All (Inside table))
    (hrules : ∀ rule ∈ rules.toList, rule.body.takes = true) (hp : p.All (Inside table))
    {id : RuleId} (h : s.Heads p id) : id ∈ p.heads := by
  have hidle {q : Parser} (hq : q.All (Inside table)) (hrun : s.Idle q) : q.takes = false := by
    obtain ⟨t, m, x, l, hrun, hx⟩ := hrun
    cases htakes : q.takes with
    | false => rfl
    | true =>
      have hlt := hrun.takes htable hrules (.of_closed_table htable (fun _ h => h.2) hq hinside)
        htakes _ _ rfl
      omega
  induction p with
  | many0 body ih | many1 body ih | exactly count body ih | named name body ih
  | guarded objection body ih => exact ih hp.2 h
  | between inner opening closing ihInner ihOpening ihClosing =>
    obtain ⟨_, hinner, hopening, hclosing⟩ := hp
    simp only [Parser.heads, List.mem_append]
    rcases h with h | ⟨hfirst, h | ⟨hsecond, h⟩⟩
    · exact .inl (ihOpening hopening h)
    · simp [hidle hopening hfirst, ihInner hinner h]
    · simp [hidle hopening hfirst, hidle hinner hsecond, ihClosing hclosing h]
  | orElse a b iha ihb | optionalThen a b iha ihb =>
    exact List.mem_append.2 (h.imp (iha hp.2.1) (ihb hp.2.2))
  | andThen a b iha ihb | thenOptional a b iha ihb | thenIgnore a b iha ihb
  | ignoreThen a b iha ihb =>
    rcases h with h | ⟨hfirst, h⟩
    · exact List.mem_append.2 (.inl (iha hp.2.1 h))
    · simp [Parser.heads, hidle hp.2.1 hfirst, ihb hp.2.2 h]
  | reference name rule | entry name rule => exact List.mem_singleton.2 h
  | _ => exact h.elim

/-- Rules that take something are layered if the heads that are written in them are in lower layers.
-/
theorem Layered.of_takes {rank : Nat → Nat} {layers : Nat} (htable : s.table table = .ready rules)
    (hinside : ∀ rule ∈ rules.toList, rule.body.All (Inside table))
    (hrules : ∀ rule ∈ rules.toList, rule.body.takes = true)
    (hrank : ∀ slot rule, rules[slot]? = some rule → ∀ id ∈ rule.body.heads,
      rank id.slot < rank slot)
    (hlayers : ∀ slot, rank slot < layers) : s.Layered table rules rank layers where
  ready := htable
  inside := hinside
  descends slot rule hslot id hid :=
    have hrule := hinside rule (Array.mem_toList_iff.2 (Array.mem_of_getElem? hslot))
    hrank slot rule hslot id (hid.mem_heads htable hinside hrules hrule)
  bounded := hlayers

end Store

end Descent
