import Descent.Proofs.Trace

/-!
# Rules that run at the same time

At every moment of a run some rules have been entered and not been left yet. Their names can be read
off the log up to that moment (`running`). To bound them it is enough to look at the parts of a parser
one by one, and to say for each part on which texts it starts and which texts it leaves
(`Store.Tame`): the rules that run inside a sequence or a choice are those of one of its parts, and a
call adds one name below those of the body that is called.
-/

namespace Descent

/-- The names of the rules that run after an event, the innermost first, if those that ran before it
are given. -/
def Event.after (running : List String) : Event → List String
  | enterRule name _ => name :: running
  | exitRule name _ _ => running.erase name
  | _ => running

/-- The names of the rules that have been entered and not been left yet, the innermost first. -/
def running (log : Log) : List String := log.foldl Event.after []

/-- A log after which the same rules run as before, and in which at every moment those that run in
addition are as they should be. -/
structure Nests (fits : List String → Prop) (log : Log) : Prop where
  closes : ∀ outer, log.foldl Event.after outer = outer
  within : ∀ front, front <+: log →
    ∃ inner, fits inner ∧ ∀ outer, front.foldl Event.after outer = inner ++ outer

namespace Nests

variable {fits fits' : List String → Prop} {log log' : Log}

/-- Nothing runs where nothing happens. -/
theorem nil (hfits : fits []) : Nests fits [] where
  closes outer := rfl
  within front hfront := by
    obtain rfl := List.prefix_nil.1 hfront
    exact ⟨[], hfits, fun outer => rfl⟩

/-- What is demanded may be less. -/
theorem imp (h : Nests fits log) (himp : ∀ inner, fits inner → fits' inner) : Nests fits' log where
  closes := h.closes
  within front hfront := by
    obtain ⟨inner, hinner, hfold⟩ := h.within front hfront
    exact ⟨inner, himp inner hinner, hfold⟩

/-- Logs follow each other: what runs during the second one does so as if nothing had happened
before. -/
theorem append (h : Nests fits log) (h' : Nests fits log') : Nests fits (log ++ log') where
  closes outer := by rw [List.foldl_append, h.closes, h'.closes]
  within front hfront := by
    rcases List.prefix_or_prefix_of_prefix hfront (List.prefix_append log log') with hfirst | hlater
    · exact h.within front hfirst
    · obtain ⟨more, rfl⟩ := hlater
      obtain ⟨inner, hinner, hfold⟩ := h'.within more ((List.prefix_append_right_inj log).1 hfront)
      refine ⟨inner, hinner, fun outer => ?_⟩
      rw [List.foldl_append, h.closes, hfold]

/-- A note leaves everything as it was. -/
theorem note {e : Event} (he : e.IsNote) (hfits : fits []) : Nests fits [e] := by
  have hafter (outer : List String) : [e].foldl Event.after outer = outer := by
    cases e with
    | enterRule name size => exact he.elim
    | exitRule name ok consumed => exact he.elim
    | grammarBuilt | deadReference | nestedTooDeeply => rfl
  refine ⟨hafter, fun front hfront => ⟨[], hfits, fun outer => ?_⟩⟩
  rcases List.prefix_cons_iff.1 hfront with rfl | ⟨more, rfl, hmore⟩
  · rfl
  · obtain rfl := List.prefix_nil.1 hmore
    exact hafter outer

/-- Between the events of a rule the rule runs below those that its body calls. -/
theorem rule {name : String} {size consumed : Nat} {ok : Bool} (hfits : fits [])
    (h : Nests (fun inner => fits (inner ++ [name])) log) :
    Nests fits (.enterRule name size :: log ++ [.exitRule name ok consumed]) := by
  have hcloses (outer : List String) :
      (Event.enterRule name size :: log ++ [Event.exitRule name ok consumed]).foldl Event.after
        outer = outer := by
    rw [List.foldl_append]
    change (log.foldl Event.after (name :: outer)).erase name = outer
    rw [h.closes]
    exact List.erase_cons_head name outer
  refine ⟨hcloses, fun front hfront => ?_⟩
  rw [List.cons_append] at hfront
  rcases List.prefix_cons_iff.1 hfront with rfl | ⟨more, rfl, hmore⟩
  · exact ⟨[], hfits, fun outer => rfl⟩
  · rcases List.prefix_concat_iff.1 hmore with rfl | hmore
    · exact ⟨[], hfits, hcloses⟩
    · obtain ⟨inner, hinner, hfold⟩ := h.within more hmore
      refine ⟨inner ++ [name], hinner, fun outer => ?_⟩
      rw [List.foldl_cons, hfold, List.append_assoc]
      rfl

/-- At every moment the rules that run are as they should be. -/
theorem running_take (h : Nests fits log) (moment : Nat) : fits (running (log.take moment)) := by
  obtain ⟨inner, hinner, hfold⟩ := h.within (log.take moment) (List.take_prefix moment log)
  have hrunning : running (log.take moment) = inner := by rw [running, hfold, List.append_nil]
  rwa [hrunning]

end Nests

namespace Store

/-- From texts of one kind the runs of a parser leave texts of another kind if they succeed, and
all the while the rules that run inside are as they should be. -/
def Tame (s : Store) (fits : List String → Prop) (pre : Text → Prop) (p : Parser)
    (post : Text → Prop) : Prop :=
  ∀ t r, pre t → s.Runs p t r → Nests fits r.log ∧ ∀ m x, r.outcome = .success m x → post x

namespace Tame

variable {s : Store} {fits fits' : List String → Prop} {pre pre' mid post post' : Text → Prop}
  {p q a b body : Parser}

/-- Less may be demanded, and more be given. -/
theorem imp (h : s.Tame fits pre p post) (hfits : ∀ inner, fits inner → fits' inner)
    (hpre : ∀ t, pre' t → pre t) (hpost : ∀ t, post t → post' t) : s.Tame fits' pre' p post' := by
  intro t r ht hrun
  obtain ⟨hnests, hleaves⟩ := h t r (hpre t ht) hrun
  exact ⟨hnests.imp hfits, fun m x hx => hpost x (hleaves m x hx)⟩

/-- A parser without parts calls nothing. -/
theorem direct {f : Text → Outcome} (hp : p.direct? = some f) (hfits : fits [])
    (hpost : ∀ t m x, pre t → f t = .success m x → post x) : s.Tame fits pre p post := by
  intro t r ht hrun
  obtain rfl := hrun.eq_direct hp
  exact ⟨.nil hfits, fun m x hx => hpost t m x ht hx⟩

/-- Nothing is always there, and leaves what it finds. -/
theorem empty (hfits : fits []) : s.Tame fits pre .empty pre :=
  .direct rfl hfits fun t m x ht hx => by
    cases hx
    exact ht

/-- A parser does what its simpler form does. -/
theorem expand (hp : p.expand? = some q) (h : s.Tame fits pre q post) : s.Tame fits pre p post :=
  fun t r ht hrun => h t r ht (hrun.simpler hp)

/-- Both parts of a choice start on the same text. -/
theorem orElse (ha : s.Tame fits pre a post) (hb : s.Tame fits pre b post) :
    s.Tame fits pre (.orElse a b) post := by
  intro t r ht hrun
  rcases hrun.orElse_cases with ⟨m, x, l, hruna, rfl⟩ | ⟨x, l, o, l', hruna, hrunb, rfl⟩
  · exact ha t _ ht hruna
  · obtain ⟨hnestsa, _⟩ := ha t _ ht hruna
    obtain ⟨hnestsb, hleaves⟩ := hb t _ ht hrunb
    exact ⟨hnestsa.append hnestsb, hleaves⟩

/-- The second part of a sequence starts where the first has ended. -/
theorem joins {keep : List Char → List Char → List Char} (hp : Parser.Joins keep a b p)
    (ha : s.Tame fits pre a mid) (hb : s.Tame fits mid b post) : s.Tame fits pre p post := by
  intro t r ht hrun
  rcases hrun.joins_cases hp with ⟨x, l, hruna, rfl⟩ | ⟨m, x, l, y, l', hruna, hrunb, rfl⟩ |
    ⟨m, x, l, n, y, l', hruna, hrunb, rfl⟩
  · obtain ⟨hnests, _⟩ := ha t _ ht hruna
    exact ⟨hnests, fun _ _ hx => by cases hx⟩
  · obtain ⟨hnestsa, hmid⟩ := ha t _ ht hruna
    obtain ⟨hnestsb, _⟩ := hb x _ (hmid m x rfl) hrunb
    exact ⟨hnestsa.append hnestsb, fun _ _ hx => by cases hx⟩
  · obtain ⟨hnestsa, hmid⟩ := ha t _ ht hruna
    obtain ⟨hnestsb, hpost⟩ := hb x _ (hmid m x rfl) hrunb
    refine ⟨hnestsa.append hnestsb, fun _ _ hx => ?_⟩
    cases hx
    exact hpost n y rfl

/-- What stands between an opening and a closing part starts where the opening has ended. -/
theorem between {opening inner closing : Parser} {inside : Text → Prop}
    (hopening : s.Tame fits pre opening mid) (hinner : s.Tame fits mid inner inside)
    (hclosing : s.Tame fits inside closing post) :
    s.Tame fits pre (.between inner opening closing) post :=
  expand rfl (joins (.andThen ..) (joins (.andThen ..) hopening hinner) hclosing)

/-- An optional part at the end keeps what the first part has given. -/
theorem thenOptional (hfits : fits []) (ha : s.Tame fits pre a post) (hb : s.Tame fits post b post) :
    s.Tame fits pre (.thenOptional a b) post :=
  expand rfl (joins (.andThen ..) ha (orElse hb (empty hfits)))

/-- An optional part at the start keeps what holds there. -/
theorem optionalThen (hfits : fits []) (ha : s.Tame fits pre a pre) (hb : s.Tame fits pre b post) :
    s.Tame fits pre (.optionalThen a b) post :=
  expand rfl (joins (.andThen ..) (orElse ha (empty hfits)) hb)

/-- A loop keeps what each repetition keeps. -/
theorem many0 (h : s.Tame fits pre body pre) : s.Tame fits pre (.many0 body) pre := by
  intro t r ht hrun
  generalize hp : Parser.many0 body = p at hrun
  induction hrun with
  | stop hb =>
    cases hp
    refine ⟨(h _ _ ht hb).1, fun m x hx => ?_⟩
    cases hx
    exact ht
  | last hb _ =>
    cases hp
    exact h _ _ ht hb
  | more hb _ _ _ ihrest =>
    cases hp
    obtain ⟨hnests, hleaves⟩ := h _ _ ht hb
    obtain ⟨hnestsRest, hleavesRest⟩ := ihrest (hleaves _ _ rfl) rfl
    refine ⟨hnests.append hnestsRest, fun m x hx => ?_⟩
    cases hx
    exact hleavesRest _ _ rfl
  | direct t hdirect =>
    subst hp
    cases hdirect
  | expand hexpand =>
    subst hp
    cases hexpand
  | breaks hjoins | breaksLate hjoins | joins hjoins =>
    subst hp
    cases hjoins
  | dead t htarget | missing t htarget | rule htarget =>
    subst hp
    cases htarget
  | first | second | never | once | objected | admitted => cases hp

/-- A loop that must go round once keeps what each repetition keeps. -/
theorem many1 (h : s.Tame fits pre body pre) : s.Tame fits pre (.many1 body) pre := by
  intro t r ht hrun
  cases hrun with
  | never hb => exact ⟨(h _ _ ht hb).1, fun m x hx => by cases hx⟩
  | once _ hloop => exact many0 h t r ht hloop
  | _ => contradiction

/-- A body runs only behind an objection that is not raised. -/
theorem guarded {objection : Text → Option Event} (hfits : fits [])
    (hnotes : ∀ t e, objection t = some e → e.IsNote)
    (h : s.Tame fits (fun t => pre t ∧ objection t = none) body post) :
    s.Tame fits pre (.guarded objection body) post := by
  intro t r ht hrun
  rcases hrun.guarded_cases with ⟨e, he, rfl⟩ | ⟨he, hbody⟩
  · exact ⟨.note (hnotes t e he) hfits, fun m x hx => by cases hx⟩
  · exact h t r ⟨ht, he⟩ hbody

/-- A call adds the name of the rule below those that run in its body. -/
theorem call {id : RuleId} {rule : Rule} (hp : p.target? = some id) (hrule : s.rule? id = some rule)
    (hfits : fits []) (h : s.Tame (fun inner => fits (inner ++ [rule.name])) pre rule.body post) :
    s.Tame fits pre p post := by
  intro t r ht hrun
  obtain ⟨o, l, hbody, rfl⟩ := hrun.rule_cases hp hrule
  obtain ⟨hnests, hleaves⟩ := h t _ ht hbody
  exact ⟨hnests.rule hfits, hleaves⟩

/-- What all parts of a parser keep that have no parts themselves, the parser keeps. The induction is
on the parser, since no call is followed. -/
theorem of_leaves (hfits : fits [])
    (hp : p.All fun q => q.Traceable ∧ (q.children = [] → s.Tame fits pre q pre)) :
    s.Tame fits pre p pre := by
  have hneutral : Parser.Neutral fun q => q.Traceable ∧ (q.children = [] → s.Tame fits pre q pre) :=
    ⟨fun _ _ => ⟨trivial, nofun⟩, fun _ _ => ⟨trivial, nofun⟩, fun _ _ => ⟨trivial, nofun⟩,
      ⟨trivial, fun _ => empty hfits⟩⟩
  induction p using Parser.induction_on_forms with
  | direct hdirect => exact hp.self.2 (Parser.children_of_direct hdirect)
  | target htarget => exact hp.self.2 (Parser.children_of_target htarget)
  | expand hexpand ih => exact expand hexpand (ih (hp.expand hneutral hexpand))
  | joins hjoins iha ihb =>
    obtain ⟨ha, hb⟩ := hp.joins hjoins
    exact joins hjoins (iha ha) (ihb hb)
  | orElse iha ihb => exact orElse (iha hp.2.1) (ihb hp.2.2)
  | many0 ih => exact many0 (ih hp.2)
  | many1 ih => exact many1 (ih hp.2)
  | guarded ih =>
    refine guarded hfits (fun t e he => hp.1.1 t e he) ?_
    exact (ih hp.2).imp (fun _ h => h) (fun t ht => ht.1) fun _ h => h

end Tame

end Store

end Descent
