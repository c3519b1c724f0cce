import Descent.Proofs.Backtracking
import Descent.Proofs.Build.Order

/-!
# Logs are traces

The log of a run tells which rules ran inside which others, on how much text, and with what success.
Such a log is a trace: every rule that is entered is left again, after the rules that it has called,
and what is said when it is left is true of a run of its body. Branches that have failed stay in the
log. A log is a trace whenever functions written by hand keep the rules of the game (`run_traces`),
because only then does a rule have no more text than the one that calls it.
-/

namespace Descent

/-- The event is neither the start nor the end of a rule. -/
def Event.IsNote : Event → Prop
  | enterRule .. => False
  | exitRule .. => False
  | _ => True

/-- A parser that by itself keeps logs readable: a function written by hand keeps the rules of the
game, and an objection is reported as something else than a run of a rule. -/
def Parser.Traceable : Parser → Prop
  | handmade _ run => ∀ t, (run t).Fair t
  | guarded objection _ => ∀ t e, objection t = some e → e.IsNote
  | _ => True

namespace Parser

/-- Only functions written by hand and objections are asked for anything. -/
theorem traceable_neutral : Neutral Traceable :=
  ⟨fun _ _ => trivial, fun _ _ => trivial, fun _ _ => trivial, trivial⟩

/-- A parser that keeps logs readable keeps the rules of the game. -/
theorem Traceable.honest {p : Parser} (hp : p.Traceable) : p.Honest := by
  cases p with
  | handmade name run => exact hp
  | _ => trivial

end Parser

/-- The bytes that were taken are those that are not left, if the rules of the game were kept. -/
theorem Outcome.Fair.consumed_add {t : Text} {o : Outcome} (h : o.Fair t) :
    o.consumed t + o.remaining.size = t.size := by
  have hle : o.remaining.size ≤ t.size := by
    cases o with
    | success m x => exact Text.size_le_of_suffix h
    | failure x => exact (congrArg Text.size h).le
  exact Nat.sub_add_cancel hle

/-- A failure that keeps the rules of the game takes nothing. -/
theorem Outcome.Fair.consumed_eq_zero {t : Text} {o : Outcome} (h : o.Fair t)
    (hfail : o.ok = false) : o.consumed t = 0 := by
  cases o with
  | success m x => cases hfail
  | failure x =>
    obtain rfl : x = t := h
    exact Nat.sub_self _

namespace Store

/-- The log tells of runs of rules of the store, one after the other, on texts of at most `limit`
bytes. -/
inductive Trace (s : Store) : Nat → Log → Prop
  /-- Nothing has happened. -/
  | nil (limit : Nat) : Trace s limit []
  /-- Something has happened in between. -/
  | note {limit e log} (he : e.IsNote) (hlog : Trace s limit log) : Trace s limit (e :: log)
  /-- A rule has run. Between its two events stand those of the rules it has called, on texts that
  are no longer than its own. The second event reports how its body has ended: the bytes taken are
  those that are not left, and none if it has failed. -/
  | rule {limit id rule t o inner log} (hrule : s.rule? id = some rule) (ht : t.size ≤ limit)
      (hbody : s.Runs rule.body t ⟨o, inner⟩) (hinner : Trace s t.size inner)
      (hconsumed : o.consumed t + o.remaining.size = t.size)
      (hfailed : o.ok = false → o.consumed t = 0) (hlog : Trace s limit log) :
      Trace s limit (.enterRule rule.name t.size :: inner ++
        .exitRule rule.name o.ok (o.consumed t) :: log)

variable {s : Store} {p : Parser} {t : Text} {r : Run} {limit limit' : Nat} {log log' : Log}

/-- A trace is one under any greater limit. -/
theorem Trace.mono (h : s.Trace limit log) (hlimit : limit ≤ limit') : s.Trace limit' log := by
  induction h generalizing limit' with
  | nil limit => exact .nil limit'
  | note he _ ih => exact .note he (ih hlimit)
  | rule hrule ht hbody hinner hconsumed hfailed _ _ ih =>
    exact .rule hrule (ht.trans hlimit) hbody hinner hconsumed hfailed (ih hlimit)

/-- Traces follow each other. -/
theorem Trace.append (h : s.Trace limit log) (h' : s.Trace limit log') :
    s.Trace limit (log ++ log') := by
  induction h with
  | nil limit => exact h'
  | note he _ ih => exact .note he (ih h')
  | @rule limit id rule t o inner log hrule ht hbody hinner hconsumed hfailed _ _ ih =>
    have happend : .enterRule rule.name t.size :: inner ++
        .exitRule rule.name o.ok (o.consumed t) :: log ++ log' =
      .enterRule rule.name t.size :: inner ++
        .exitRule rule.name o.ok (o.consumed t) :: (log ++ log') := by
      simp
    rw [happend]
    exact .rule hrule ht hbody hinner hconsumed hfailed (ih h')

/-- The log of a run is a trace. The induction is on the run: a part starts on the text that the part
before it has left, so the rules it calls have no more text than the run started with. -/
theorem Runs.trace (h : s.Runs p t r) (hp : s.Everywhere Parser.Traceable p) :
    s.Trace t.size r.log := by
  have hleft {q : Parser} {t x : Text} {m : List Char} {l : Log}
      (hq : s.Everywhere Parser.Traceable q) (hrun : s.Runs q t ⟨.success m x, l⟩) :
      x.size ≤ t.size :=
    hrun.size_le fun part hpart => (hq part hpart).honest.shrinking
  induction h with
  | direct t _ => exact .nil t.size
  | expand hexpand _ ih => exact ih (hp.expand Parser.traceable_neutral hexpand)
  | first b _ ih => exact ih (hp.child (by simp [Parser.children]))
  | second _ _ iha ihb =>
    exact (iha (hp.child (by simp [Parser.children]))).append
      (ihb (hp.child (by simp [Parser.children])))
  | breaks hjoins _ ih => exact ih (hp.joins hjoins).1
  | breaksLate hjoins ha _ iha ihb | joins hjoins ha _ iha ihb =>
    obtain ⟨hpa, hpb⟩ := hp.joins hjoins
    exact (iha hpa).append ((ihb hpb).mono (hleft hpa ha))
  | stop _ ih | last _ _ ih | never _ ih => exact ih (hp.child (by simp [Parser.children]))
  | more hb _ _ ihb ihrest =>
    have hbody := hp.child (List.mem_singleton.2 rfl)
    exact (ihb hbody).append ((ihrest hp).mono (hleft hbody hb))
  | once _ _ _ ih => exact ih (.intro trivial (fun c hc => hp.child hc) (by simp [Parser.target?]))
  | objected body he => exact .note (hp.self _ _ he) (.nil _)
  | admitted _ _ ih => exact ih (hp.child (by simp [Parser.children]))
  | dead t _ _ => exact .note trivial (.nil _)
  | missing t _ _ _ => exact .nil t.size
  | rule htarget hrule hbody ih =>
    have hcalled := hp.called htarget hrule
    have hfair := hbody.fair fun q hq => (hcalled q hq).honest
    exact .rule hrule (Nat.le_refl _) hbody (ih hcalled) hfair.consumed_add
      hfair.consumed_eq_zero (.nil _)

end Store

/-! ## Entries -/

namespace Grammar

variable {σ : Type} {ds : List (Declaration σ)} {start : String} {site site' : Site σ} {p : Parser}

/-- As long as its table is there, the entry of a grammar that was built calls the start rule. -/
theorem exists_start_rule (hbuild : build ds start site = (.ok p, site')) {s : Store}
    (hsame : s.table site.store.allocate.1 = site'.store.table site.store.allocate.1)
    (hthere : s.table site.store.allocate.1 ≠ .dropped) :
    ∃ id rule, p.target? = some id ∧ s.rule? id = some rule ∧ rule.name = start := by
  obtain ⟨slot, _, hslot, _, rfl, rfl⟩ := content_of_build hbuild
  obtain ⟨before, d, after, hds, rfl, hname⟩ := exists_split hslot
  let left := afterTurns site.store.allocate.1 (ds.map (·.name)) (opened site) ds
  have hmade := getElem?_made site.store.allocate.1 (ds.map (·.name)) (opened site) before after d
  rw [← hds] at hmade
  by_cases hsize : site.store.allocate.1 < left.store.tables.size
  · have htable : s.table site.store.allocate.1 = .ready
        (made site.store.allocate.1 (ds.map (·.name)) (opened site) ds).toArray :=
      hsame.trans (Store.table_put_self hsize)
    have hrule : s.rule? ⟨site.store.allocate.1, before.length⟩ =
        (made site.store.allocate.1 (ds.map (·.name)) (opened site) ds)[before.length]? := by
      simp only [Store.rule?, htable, List.getElem?_toArray]
    exact ⟨_, _, rfl, hrule.trans hmade, hname⟩
  · -- Builders that have lost the table leave none to put the rules into.
    refine absurd (hsame.trans (Store.table_of_size_le ?_)) hthere
    rw [finished, Store.size_put]
    exact Nat.not_lt.1 hsize

end Grammar

/-- The log of a run, at whatever depth, is a trace on at most the bytes that the run started with, if
functions written by hand keep the rules of the game. The log of the entry of a grammar that was
built, as long as its table is there, is that of one run of the start rule on the whole text, and
ends with what the run reports. -/
theorem run_traces {s : Store} {p : Parser} {t : Text} {r : Run} {depth : Nat}
    (hp : s.Everywhere Parser.Traceable p) (h : s.step depth p t = some r) :
    s.Trace t.size r.log ∧
      ∀ {σ : Type} (ds : List (Declaration σ)) (start : String) (site site' : Site σ),
        Grammar.build ds start site = (.ok p, site') →
        s.table site.store.allocate.1 = site'.store.table site.store.allocate.1 →
        s.table site.store.allocate.1 ≠ .dropped →
        ∃ inner, s.Trace t.size inner ∧
          r.log = .enterRule start t.size :: inner ++
            [.exitRule start r.outcome.ok (r.outcome.consumed t)] := by
  have hrun := Store.Runs.of_step h
  refine ⟨hrun.trace hp, fun ds start site site' hbuild hsame hthere => ?_⟩
  obtain ⟨id, rule, htarget, hrule, rfl⟩ := Grammar.exists_start_rule hbuild hsame hthere
  obtain ⟨o, inner, hbody, rfl⟩ := hrun.rule_cases htarget hrule
  exact ⟨inner, hbody.trace (hp.called htarget hrule), rfl⟩

/-- On two letters and a digit the grammar of words enters the rule for letters three times, and the
last time in vain. -/
theorem run_traces_words : ∃ (p : Parser) (site' : Site Unit) (r : Run),
    Grammar.build Grammar.words "letters" (.fresh .empty ()) = (.ok p, site') ∧
      site'.store.Everywhere Parser.Traceable p ∧
      site'.store.step 4 p (.ofList ['a', 'b', '1']) = some r ∧
      r.log =
        [.enterRule "letters" 3,
          .enterRule "letter" 3, .exitRule "letter" true 1,
          .enterRule "letter" 2, .exitRule "letter" true 1,
          .enterRule "letter" 1, .exitRule "letter" false 0,
          .exitRule "letters" true 2] ∧
      site'.store.Trace 3 r.log ∧
      ∃ inner, site'.store.Trace 3 inner ∧
        r.log = .enterRule "letters" 3 :: inner ++ [.exitRule "letters" true 2] := by
  let rules : Array Rule :=
    #[⟨"letters", .many1 (.reference "letter" ⟨0, 1⟩)⟩, ⟨"letter", .anyLetter⟩]
  let site' : Site Unit := ⟨⟨#[.ready rules]⟩, [.grammarBuilt 2 "letters"], [], ()⟩
  let p : Parser := .entry "letters" ⟨0, 0⟩
  have hbuild : Grammar.build Grammar.words "letters" (.fresh .empty ()) = (.ok p, site') := rfl
  have htable : site'.store.table 0 = .ready rules := rfl
  have hp : site'.store.Everywhere Parser.Traceable p := by
    refine .of_table htable ?_ ?_
    · simp [p, Parser.All, Parser.Traceable, Parser.CallsInto, Parser.target?]
    · simp [rules, Parser.All, Parser.Traceable, Parser.CallsInto, Parser.target?]
  obtain ⟨htrace, hentry⟩ :=
    @run_traces site'.store p (.ofList ['a', 'b', '1']) _ 4 hp rfl
  have hthere : site'.store.table 0 ≠ .dropped := by simp [htable]
  exact ⟨p, site', _, hbuild, hp, rfl, rfl, htrace,
    hentry Grammar.words "letters" (.fresh .empty ()) site' hbuild rfl hthere⟩

end Descent
