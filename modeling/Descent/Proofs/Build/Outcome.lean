import Descent.Grammar.Build
import Mathlib.Data.List.Induction
import Mathlib.Data.List.Nodup

/-!
# How a build ends

A builder can do four things: ask its handle for a rule, ask it for the name of the rule around, work
on everything that is not the handle's, and end with a body. Written as a script of such actions it
has a list of the names that it asks for, and this list decides how a build ends
(`Grammar.build_iff`): with the first name that is declared again, with a start rule that no rule
has, with the first builder that asks for a name that no rule has, or with a parser. Which builders
have run by then is seen in the site that is left, since each may change it in any way.
-/

namespace Descent

variable {σ : Type}

/-- What a builder does, one action after the other. -/
inductive Script (σ : Type) : Type 1
  /-- The builder ends with the body of the rule. -/
  | body (p : Parser)
  /-- The builder asks for a rule by its name, and goes on with the parser for it. -/
  | ask (name : String) (next : Parser → Script σ)
  /-- The builder asks for the name of the rule around. -/
  | current (next : String → Script σ)
  /-- The builder works on the tables, the log and what is the caller's own. -/
  | work {α : Type} (act : Store → Log → σ → α × Store × Log × σ) (next : α → Script σ)

namespace Script

/-- The work of a script on a site. What has been asked for in vain is out of its reach. -/
def perform {α : Type} (act : Store → Log → σ → α × Store × Log × σ) (site : Site σ) : α × Site σ :=
  let done := act site.store site.log site.own
  (done.1, ⟨done.2.1, done.2.2.1, site.missing, done.2.2.2⟩)

/-- The builder that follows the script. -/
def run : Script σ → Rules → Build σ Parser
  | body p, _, site => (p, site)
  | ask name next, rules, site =>
    (next (rules.rule name site).1).run rules (rules.rule name site).2
  | current next, rules, site => (next rules.current).run rules site
  | work act next, rules, site => (next (perform act site).1).run rules (perform act site).2

/-- The names that the script asks for on a site, in order. -/
def asked : Script σ → Rules → Site σ → List String
  | body _, _, _ => []
  | ask name next, rules, site =>
    name :: (next (rules.rule name site).1).asked rules (rules.rule name site).2
  | current next, rules, site => (next rules.current).asked rules site
  | work act next, rules, site => (next (perform act site).1).asked rules (perform act site).2

/-- The first name that the script asks for on a site in vain. -/
def firstUnknown? (script : Script σ) (rules : Rules) (site : Site σ) : Option String :=
  (script.asked rules site).find? fun name => !rules.names.contains name

/-- A name is noted if and only if no rule has it. -/
theorem missing_rule (rules : Rules) (name : String) (site : Site σ) :
    (rules.rule name site).2.missing =
      site.missing ++ [name].filter fun name => !rules.names.contains name := by
  unfold Rules.rule
  cases hslot : rules.names.idxOf? name with
  | none => simp [List.idxOf?_eq_none_iff.1 hslot]
  | some slot =>
    have hmem : name ∈ rules.names := by
      by_contra hnot
      rw [List.idxOf?_eq_none_iff.2 hnot] at hslot
      cases hslot
    simp [hmem]

/-- What a builder leaves noted are the names that its script asks for in vain. -/
theorem missing_run (rules : Rules) (script : Script σ) (site : Site σ) :
    (script.run rules site).2.missing =
      site.missing ++ (script.asked rules site).filter fun name => !rules.names.contains name := by
  induction script generalizing site with
  | body p => simp [run, asked]
  | ask name next ih =>
    simp only [run, asked, ih, missing_rule, List.append_assoc]
    rw [← List.filter_append, List.singleton_append]
  | current next ih => exact ih rules.current site
  | work act next ih => exact ih _ (perform act site).2

end Script

/-- A rule with the script of its builder. -/
structure ScriptedRule (σ : Type) : Type 1 where
  name : String
  script : Script σ

/-- The rule as it is declared. -/
def ScriptedRule.declare (rule : ScriptedRule σ) : Declaration σ := ⟨rule.name, rule.script.run⟩

/-- Work that goes on unless it has come to an error. -/
def Build.unlessError {α β : Type} (work : Build σ (Except GrammarError α))
    (next : α → Build σ (Except GrammarError β)) : Build σ (Except GrammarError β) :=
  work >>= fun
    | .ok x => next x
    | .error e => pure (.error e)

namespace Grammar

variable {table : Nat} {names : List String} {site : Site σ} {d : Declaration σ}
  {ds before after : List (Declaration σ)} {name start : String}

/-! ## Builders in turn -/

/-- What the builder of a rule does when its turn comes: nothing has been asked for in vain then. -/
def turn (table : Nat) (names : List String) (site : Site σ) (d : Declaration σ) : Parser × Site σ :=
  d.builder ⟨table, names, d.name⟩ { site with missing := [] }

/-- The site after the turn of one builder. -/
def afterTurn (table : Nat) (names : List String) (site : Site σ) (d : Declaration σ) : Site σ :=
  { (turn table names site d).2 with missing := site.missing }

/-- The site after the turns of builders, which have run once each and in this order. -/
def afterTurns (table : Nat) (names : List String) (site : Site σ) (ran : List (Declaration σ)) :
    Site σ :=
  ran.foldl (afterTurn table names) site

/-- Turns follow each other. -/
theorem afterTurns_append (table : Nat) (names : List String) (site : Site σ)
    (before after : List (Declaration σ)) : afterTurns table names site (before ++ after) =
      afterTurns table names (afterTurns table names site before) after :=
  List.foldl_append

/-- The rules that builders make in their turns. -/
def made (table : Nat) (names : List String) : Site σ → List (Declaration σ) → List Rule
  | _, [] => []
  | site, d :: ds =>
    ⟨d.name, (turn table names site d).1⟩ :: made table names (afterTurn table names site d) ds

/-- Every builder is content in its turn: it asks for nothing in vain. -/
def Content (table : Nat) (names : List String) (site : Site σ) (ds : List (Declaration σ)) : Prop :=
  ∀ before d after, ds = before ++ d :: after →
    (turn table names (afterTurns table names site before) d).2.missing = []

/-- The first builder is content, and the others are after its turn. -/
theorem content_cons : Content table names site (d :: ds) ↔
    (turn table names site d).2.missing = [] ∧
      Content table names (afterTurn table names site d) ds := by
  refine ⟨fun h => ⟨h [] d ds rfl, fun before e after hds => ?_⟩, ?_⟩
  · exact h (d :: before) e after (by rw [hds, List.cons_append])
  · rintro ⟨hd, hrest⟩ (_ | ⟨e, before⟩) f after hds
    · cases hds
      exact hd
    · obtain ⟨rfl, hsplit⟩ := List.cons.inj hds
      exact hrest before f after hsplit

/-- What has been asked for in vain decides whether a builder's turn gives a rule or an error. -/
theorem buildRule_eq (table : Nat) (names : List String) (site : Site σ) (d : Declaration σ) :
    buildRule table names d site =
      (match (turn table names site d).2.missing with
        | [] => .ok ⟨d.name, (turn table names site d).1⟩
        | name :: _ => .error (.unknownRule name d.name),
      afterTurn table names site d) := by
  unfold buildRule afterTurn turn
  rcases d.builder ⟨table, names, d.name⟩ { site with missing := [] } with
    ⟨body, store, log, missing, own⟩
  cases missing with
  | nil => rfl
  | cons name more => rfl

/-- Builders run one after the other, up to the first error. -/
theorem buildRules_cons (table : Nat) (names : List String) (d : Declaration σ)
    (ds : List (Declaration σ)) : buildRules table names (d :: ds) =
      Build.unlessError (buildRule table names d) fun rule =>
        Build.unlessError (buildRules table names ds) fun rules => pure (.ok (rule :: rules)) := by
  funext site
  simp only [buildRules, Build.unlessError, bind, StateT.bind]
  rcases buildRule table names d site with ⟨e | rule, left⟩
  · rfl
  · simp only [StateT.bind, bind]
    rcases buildRules table names ds left with ⟨e | rules, left⟩
    · rfl
    · rfl

/-- Builders that are content make their rules. -/
theorem buildRules_of_content (h : Content table names site ds) :
    buildRules table names ds site =
      (.ok (made table names site ds), afterTurns table names site ds) := by
  induction ds generalizing site with
  | nil => rfl
  | cons d ds ih =>
    obtain ⟨hd, hrest⟩ := content_cons.1 h
    simp only [buildRules, buildRule_eq, hd, ih hrest]
    rfl

/-- No builder runs after the first one that is not content. -/
theorem buildRules_of_missing {more : List String} (after : List (Declaration σ))
    (h : Content table names site before)
    (hd : (turn table names (afterTurns table names site before) d).2.missing = name :: more) :
    buildRules table names (before ++ d :: after) site =
      (.error (.unknownRule name d.name), afterTurns table names site (before ++ [d])) := by
  induction before generalizing site with
  | nil =>
    have hd : (turn table names site d).2.missing = name :: more := hd
    simp only [List.nil_append, buildRules, buildRule_eq, hd]
    rfl
  | cons e before ih =>
    obtain ⟨he, hrest⟩ := content_cons.1 h
    simp only [List.cons_append, buildRules, buildRule_eq, he, ih hrest hd]
    rfl

/-- Either all builders are content, or there is a first one that is not. -/
theorem content_or_missing (table : Nat) (names : List String) (site : Site σ)
    (ds : List (Declaration σ)) : Content table names site ds ∨
      ∃ before d after name more, ds = before ++ d :: after ∧ Content table names site before ∧
        (turn table names (afterTurns table names site before) d).2.missing = name :: more := by
  induction ds generalizing site with
  | nil => exact .inl fun before d after hds => by simp at hds
  | cons d ds ih =>
    cases hd : (turn table names site d).2.missing with
    | cons name more =>
      exact .inr ⟨[], d, ds, name, more, rfl, fun before d after hds => by simp at hds, hd⟩
    | nil =>
      rcases ih (afterTurn table names site d) with
        hrest | ⟨before, e, after, name, more, rfl, hbefore, he⟩
      · exact .inl (content_cons.2 ⟨hd, hrest⟩)
      · exact .inr ⟨d :: before, e, after, name, more, rfl, content_cons.2 ⟨hd, hbefore⟩, he⟩

/-! ## Names -/

/-- The first name that is repeated, wherever the names before it are new. -/
theorem firstRepeated?_append {seen front back : List String} (hseen : ∀ n ∈ front, n ∉ seen)
    (hfront : front.Nodup) (hname : name ∈ front ∨ name ∈ seen) :
    firstRepeated? seen (front ++ name :: back) = some name := by
  induction front generalizing seen with
  | nil =>
    have hmem : name ∈ seen := hname.resolve_left List.not_mem_nil
    simp [firstRepeated?, hmem]
  | cons n front ih =>
    obtain ⟨hn, hfront⟩ := List.nodup_cons.1 hfront
    have hnew : n ∉ seen := hseen n List.mem_cons_self
    simp only [List.cons_append, firstRepeated?, List.contains_iff_mem, hnew, if_false]
    refine ih (fun m hm => ?_) hfront ?_
    · have hne : m ≠ n := fun heq => hn (heq ▸ hm)
      simp [hne, hseen m (List.mem_cons_of_mem n hm)]
    · rcases hname with hname | hname
      · rcases List.mem_cons.1 hname with rfl | hname
        · exact .inr List.mem_cons_self
        · exact .inl hname
      · exact .inr (List.mem_cons_of_mem n hname)

/-- Among different names none is repeated. -/
theorem firstRepeated?_of_nodup {seen all : List String} (hseen : ∀ n ∈ all, n ∉ seen)
    (hall : all.Nodup) : firstRepeated? seen all = none := by
  induction all generalizing seen with
  | nil => rfl
  | cons n all ih =>
    obtain ⟨hn, hall⟩ := List.nodup_cons.1 hall
    have hnew : n ∉ seen := hseen n List.mem_cons_self
    simp only [firstRepeated?, List.contains_iff_mem, hnew, if_false]
    refine ih (fun m hm => ?_) hall
    have hne : m ≠ n := fun heq => hn (heq ▸ hm)
    simp [hne, hseen m (List.mem_cons_of_mem n hm)]

/-- Among names that are not all different there is a first one that is repeated. -/
theorem exists_first_repeated {all : List String} (h : ¬ all.Nodup) :
    ∃ front name back, all = front ++ name :: back ∧ front.Nodup ∧ name ∈ front := by
  induction all using List.reverseRecOn with
  | nil => exact absurd List.nodup_nil h
  | append_singleton all last ih =>
    by_cases hall : all.Nodup
    · have hmem : last ∈ all := by
        by_contra hnot
        exact h (List.nodup_append.2 ⟨hall, List.nodup_singleton last, by
          rintro n hn m hm rfl
          exact hnot (List.mem_singleton.1 hm ▸ hn)⟩)
      exact ⟨all, last, [], rfl, hall, hmem⟩
    · obtain ⟨front, name, back, rfl, hfront, hname⟩ := ih hall
      exact ⟨front, name, back ++ [last], by simp, hfront, hname⟩

/-! ## Builds that succeed -/

/-- The site on which the builders of a grammar work, with a new table. -/
def opened (site : Site σ) : Site σ := { site with store := site.store.allocate.2 }

/-- The site that a build leaves when all goes well. -/
def finished (site : Site σ) (ds : List (Declaration σ)) (start : String) : Site σ :=
  let left := afterTurns site.store.allocate.1 (ds.map (·.name)) (opened site) ds
  let rules := made site.store.allocate.1 (ds.map (·.name)) (opened site) ds
  { left with
    store := left.store.put site.store.allocate.1 (.ready rules.toArray)
    log := left.log ++ [.grammarBuilt ds.length start] }

/-- Where all names are different, the start rule is among them and all builders are content, a build
returns the entry for the start rule. -/
theorem build_of_content {slot : Nat} (hnames : (ds.map (·.name)).Nodup)
    (hslot : (ds.map (·.name)).idxOf? start = some slot)
    (hall : Content site.store.allocate.1 (ds.map (·.name)) (opened site) ds) :
    build ds start site =
      (.ok (.entry start ⟨site.store.allocate.1, slot⟩), finished site ds start) := by
  have hnew : firstRepeated? [] (ds.map (·.name)) = none := firstRepeated?_of_nodup (by simp) hnames
  have hrules := buildRules_of_content hall
  rw [opened] at hrules
  unfold build
  simp only [hnew, hslot, hrules]
  simp [finished, opened]

/-- Only then does a build succeed. -/
theorem content_of_build {p : Parser} {site' : Site σ} (h : build ds start site = (.ok p, site')) :
    ∃ slot, (ds.map (·.name)).Nodup ∧ (ds.map (·.name)).idxOf? start = some slot ∧
      Content site.store.allocate.1 (ds.map (·.name)) (opened site) ds ∧
      p = .entry start ⟨site.store.allocate.1, slot⟩ ∧ site' = finished site ds start := by
  have hbuild := h
  unfold build at h
  dsimp only at h
  by_cases hnames : (ds.map (·.name)).Nodup
  · rw [firstRepeated?_of_nodup (by simp) hnames] at h
    cases hslot : (ds.map (·.name)).idxOf? start with
    | none =>
      simp only [hslot] at h
      cases h
    | some slot =>
      rcases content_or_missing site.store.allocate.1 (ds.map (·.name)) (opened site) ds with
        hall | ⟨before, d, after, name, more, hds, hbefore, hmissing⟩
      · cases hbuild.symm.trans (build_of_content hnames hslot hall)
        exact ⟨slot, hnames, rfl, hall, rfl, rfl⟩
      · have hrules := buildRules_of_missing after hbefore hmissing
        rw [← hds, opened] at hrules
        simp only [hslot, hrules] at h
        cases h
  · -- With a name that is repeated there is no parser.
    obtain ⟨front, name, back, hsplit, hfront, hname⟩ := exists_first_repeated hnames
    rw [hsplit, firstRepeated?_append (by simp) hfront (.inl hname)] at h
    cases h

/-! ## The four ends -/

variable {rules : List (ScriptedRule σ)} {result : Except GrammarError Parser} {site' : Site σ}

/-- The names of the rules, in order of declaration. -/
def namesOf (rules : List (ScriptedRule σ)) : List String := rules.map (·.name)

/-- The site in the build of a grammar with the given names, after the builders of the first rules
have run, once each and in order of declaration. -/
def siteAfter (names : List String) (site : Site σ) (ran : List (ScriptedRule σ)) : Site σ :=
  afterTurns site.store.allocate.1 names (opened site)
    (ran.map ScriptedRule.declare)

/-- The first name that a builder asks for in vain in its turn, after the builders of the rules
before it. -/
def firstUnknown? (names : List String) (site : Site σ) (ran : List (ScriptedRule σ))
    (rule : ScriptedRule σ) : Option String :=
  rule.script.firstUnknown? ⟨site.store.allocate.1, names, rule.name⟩
    { siteAfter names site ran with missing := [] }

/-- No builder of these rules asks for anything in vain in its turn. -/
def AllKnown (names : List String) (site : Site σ) (rules : List (ScriptedRule σ)) : Prop :=
  ∀ front rule back, rules = front ++ rule :: back → firstUnknown? names site front rule = none

/-- How the build of a grammar ends, and what it leaves. -/
inductive Ends (rules : List (ScriptedRule σ)) (start : String) (site : Site σ) :
    Except GrammarError Parser → Site σ → Prop
  /-- A name is the first that is declared again. No builder has run. -/
  | duplicateRule (front rule back) (hrules : rules = front ++ rule :: back)
      (hnew : (namesOf front).Nodup) (hagain : rule.name ∈ namesOf front) :
      Ends rules start site (.error (.duplicateRule rule.name)) site
  /-- All names are different, and the start rule is not among them. No builder has run. -/
  | unknownStart (hnames : (namesOf rules).Nodup) (hstart : start ∉ namesOf rules) :
      Ends rules start site (.error (.unknownStart start)) site
  /-- A rule is the first whose builder asks for a name in vain. The builders have run up to that of
  this rule, and the table of the grammar is given up. -/
  | unknownRule (front rule back name) (hnames : (namesOf rules).Nodup)
      (hstart : start ∈ namesOf rules) (hrules : rules = front ++ rule :: back)
      (hfront : AllKnown (namesOf rules) site front)
      (hname : firstUnknown? (namesOf rules) site front rule = some name) :
      Ends rules start site (.error (.unknownRule name rule.name))
        (let left := siteAfter (namesOf rules) site (front ++ [rule])
        { left with store := left.store.put site.store.allocate.1 .dropped })
  /-- All is well. All builders have run, and the table of the grammar holds the bodies that they
  have made. -/
  | built (slot : Nat) (hnames : (namesOf rules).Nodup)
      (hslot : (namesOf rules).idxOf? start = some slot) (hall : AllKnown (namesOf rules) site rules) :
      Ends rules start site (.ok (.entry start ⟨site.store.allocate.1, slot⟩))
        (finished site (rules.map ScriptedRule.declare) start)

/-- The names of the declared rules are those of the rules. -/
theorem map_name_declare : (rules.map ScriptedRule.declare).map (·.name) = namesOf rules := by
  rw [List.map_map]
  rfl

/-- What the builder of a script has asked for in vain, the first name first. -/
theorem head?_missing_turn (names : List String) (site : Site σ) (ran : List (ScriptedRule σ))
    (rule : ScriptedRule σ) :
    (turn site.store.allocate.1 names (siteAfter names site ran) rule.declare).2.missing.head? =
      firstUnknown? names site ran rule := by
  have hmissing := Script.missing_run ⟨site.store.allocate.1, names, rule.name⟩ rule.script
    { siteAfter names site ran with missing := [] }
  rw [List.nil_append] at hmissing
  unfold firstUnknown? Script.firstUnknown?
  rw [← List.head?_filter, ← hmissing]
  rfl

/-- Builders are content if and only if their scripts ask for nothing in vain. -/
theorem content_iff_allKnown {names : List String} :
    Content site.store.allocate.1 names (opened site)
      (rules.map ScriptedRule.declare) ↔ AllKnown names site rules := by
  refine ⟨fun h front rule back hrules => ?_, fun h before d after hds => ?_⟩
  · have hmissing := h (front.map ScriptedRule.declare) rule.declare
      (back.map ScriptedRule.declare) (by rw [hrules, List.map_append, List.map_cons])
    rw [← head?_missing_turn, List.head?_eq_none_iff]
    exact hmissing
  · obtain ⟨front, rest, rfl, rfl, hrest⟩ := List.map_eq_append_iff.1 hds
    obtain ⟨rule, back, rfl, rfl, rfl⟩ := List.map_eq_cons_iff.1 hrest
    have hnone := h front rule back rfl
    rwa [← head?_missing_turn, List.head?_eq_none_iff] at hnone

/-- A build does what its end says. -/
theorem Ends.build_eq (h : Ends rules start site result site') :
    build (rules.map ScriptedRule.declare) start site = (result, site') := by
  cases h with
  | duplicateRule front rule back hrules hnew hagain =>
    have hnames : namesOf rules = namesOf front ++ rule.name :: namesOf back := by
      simp [hrules, namesOf]
    unfold build
    simp only [map_name_declare]
    rw [hnames, firstRepeated?_append (by simp) hnew (.inl hagain)]
  | unknownStart hnames hstart =>
    unfold build
    simp only [map_name_declare]
    rw [firstRepeated?_of_nodup (by simp) hnames, List.idxOf?_eq_none_iff.2 hstart]
  | unknownRule front rule back name hnames hstart hrules hfront hname =>
    obtain ⟨slot, hslot⟩ := Option.isSome_iff_exists.1 (List.isSome_idxOf?.2 hstart)
    rw [← head?_missing_turn] at hname
    obtain ⟨more, hmissing⟩ := List.head?_eq_some_iff.1 hname
    have hend := buildRules_of_missing (back.map ScriptedRule.declare)
      (content_iff_allKnown.2 hfront) hmissing
    unfold build
    simp only [map_name_declare]
    rw [firstRepeated?_of_nodup (by simp) hnames, hslot]
    subst hrules
    simp only [opened] at hend
    simp only [List.map_append, List.map_cons, hend]
    simp [siteAfter, opened, ScriptedRule.declare]
  | built slot hnames hslot hall =>
    rw [← map_name_declare] at hnames hslot hall
    exact build_of_content hnames hslot (content_iff_allKnown.2 hall)

/-- Every build comes to an end. -/
theorem exists_ends (rules : List (ScriptedRule σ)) (start : String) (site : Site σ) :
    ∃ result site', Ends rules start site result site' := by
  by_cases hnames : (namesOf rules).Nodup
  · cases hslot : (namesOf rules).idxOf? start with
    | none => exact ⟨_, _, .unknownStart hnames (List.idxOf?_eq_none_iff.1 hslot)⟩
    | some slot =>
      have hstart : start ∈ namesOf rules := List.isSome_idxOf?.1 (by rw [hslot]; rfl)
      rcases content_or_missing site.store.allocate.1 (namesOf rules)
        (opened site) (rules.map ScriptedRule.declare) with
        hall | ⟨before, d, after, name, more, hds, hbefore, hmissing⟩
      · exact ⟨_, _, .built slot hnames hslot (content_iff_allKnown.1 hall)⟩
      · obtain ⟨front, rest, hrules, rfl, hrest⟩ := List.map_eq_append_iff.1 hds
        obtain ⟨rule, back, rfl, rfl, rfl⟩ := List.map_eq_cons_iff.1 hrest
        have hname := head?_missing_turn (namesOf rules) site front rule
        rw [siteAfter, hmissing, List.head?_cons] at hname
        exact ⟨_, _, .unknownRule front rule back name hnames hstart hrules
          (content_iff_allKnown.1 hbefore) hname.symm⟩
  · obtain ⟨front, name, back, hsplit, hfront, hname⟩ := exists_first_repeated hnames
    obtain ⟨first, rest, rfl, rfl, hrest⟩ := List.map_eq_append_iff.1 hsplit
    obtain ⟨rule, last, rfl, rfl, rfl⟩ := List.map_eq_cons_iff.1 hrest
    exact ⟨_, _, .duplicateRule first rule last rfl hfront hname⟩

/-- How a build ends is decided by the names of the rules and the names that their scripts ask for:
the result and the site that is left are those of one of the four ends, and of no other. -/
theorem build_iff : build (rules.map ScriptedRule.declare) start site = (result, site') ↔
    Ends rules start site result site' := by
  refine ⟨fun h => ?_, Ends.build_eq⟩
  obtain ⟨_, _, hends⟩ := exists_ends rules start site
  cases h.symm.trans hends.build_eq
  exact hends

end Grammar

end Descent
