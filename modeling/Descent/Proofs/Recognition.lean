import Descent.Proofs.Acceptance
import Descent.Proofs.Conservation
import Descent.Proofs.Language
import Descent.Proofs.Taking

/-!
# Recognised languages

A parser recognises a language if it takes a word of it from the front of a text wherever there is
one, and hands back every other text (`Store.Recognises`). A word that the parser accepts, whatever
follows, is the only one at the front of the text, since a run has one result. Where no rule of a
table calls another before it has taken something, all runs end (`Store.Flat`), and it remains to
show that matches are words and that words are accepted.
-/

namespace Descent

/-- A parser that by itself hands back what it is given when it fails, and drops nothing when it
succeeds. -/
def Parser.Faithful (p : Parser) : Prop := p.Honest ∧ p.Conserving

namespace Store

/-- The parser takes a word of the language from the front of a text, and leaves what follows the
word; it fails on the texts that start with no word, and hands them back. -/
def Recognises (s : Store) (p : Parser) (words : Language Char) : Prop :=
  ∀ t, ∃ r, s.run p t = some r ∧
    (∀ m x, r.outcome = .success m x ↔ m ∈ words ∧ m ++ x.chars = t.chars) ∧
    (r.outcome = .failure t ↔ ∀ m ∈ words, ¬m <+: t.chars)

/-- The store with one more table, which is ready. -/
def adding (s : Store) (rules : Array Rule) : Store := ⟨s.tables.push (.ready rules)⟩

/-- The table stands under the number that was free. -/
@[simp] theorem table_adding (s : Store) (rules : Array Rule) :
    (s.adding rules).table s.tables.size = .ready rules := by
  simp [adding, Store.table]

/-- A ready table whose rules call each other only after they have taken something, and are put
together from faithful parsers. -/
structure Flat (s : Store) (table : Nat) (rules : Array Rule) : Prop where
  ready : s.table table = .ready rules
  faithful : ∀ rule ∈ rules.toList, rule.body.All fun q => q.Faithful ∧ q.CallsInto table
  takes : ∀ rule ∈ rules.toList, rule.body.takes = true
  headless : ∀ rule ∈ rules.toList, rule.body.heads = []

variable {s : Store} {table : Nat} {rules : Array Rule} {p : Parser} {words : Language Char}
  {t x : Text} {m : List Char} {l : Log}

namespace Flat

/-- An entry of a grammar is faithful and stays in its table. -/
theorem all_entry (name : String) (table slot : Nat) :
    (Parser.entry name ⟨table, slot⟩).All fun q => q.Faithful ∧ q.CallsInto table := by
  simp [Parser.All, Parser.Faithful, Parser.Honest, Parser.Conserving, Parser.CallsInto,
    Parser.target?]

/-- All rules are in the same layer. -/
theorem layered (h : s.Flat table rules) : s.Layered table rules (fun _ => 0) 1 := by
  have hinside : ∀ rule ∈ rules.toList, rule.body.All (Inside table) := fun rule hrule =>
    (h.faithful rule hrule).imp fun q hq => ⟨hq.1.1.shrinking, hq.2⟩
  refine .of_takes h.ready hinside h.takes (fun slot rule hrule id hid => ?_) fun _ => Nat.one_pos
  have hmem : rule ∈ rules.toList := Array.mem_toList_iff.2 (Array.mem_of_getElem? hrule)
  rw [h.headless rule hmem] at hid
  cases hid

/-- Every run of a parser on the table ends. -/
theorem run_isSome (h : s.Flat table rules) (hp : p.All fun q => q.Faithful ∧ q.CallsInto table)
    (t : Text) : (s.run p t).isSome :=
  h.layered.run_isSome (hp.imp fun q hq => ⟨hq.1.1.shrinking, hq.2⟩) (by omega) t

/-- Whatever such a parser comes to, it comes to at the depth that is granted. -/
theorem run_eq (h : s.Flat table rules) (hp : p.All fun q => q.Faithful ∧ q.CallsInto table)
    {r : Run} (hrun : s.Runs p t r) : s.run p t = some r := by
  obtain ⟨r', hr'⟩ := Option.isSome_iff_exists.1 (h.run_isSome hp t)
  rw [hr', hrun.unique (.of_step hr')]

/-- A parser that is faithful, and calls into a flat table only, is faithful everywhere. -/
theorem everywhere_faithful (h : s.Flat table rules)
    (hp : p.All fun q => q.Faithful ∧ q.CallsInto table) : s.Everywhere Parser.Faithful p :=
  .of_table h.ready hp h.faithful

/-- What a faithful parser matches and what it leaves are the text that it was given. -/
theorem conserves (h : s.Flat table rules) (hp : p.All fun q => q.Faithful ∧ q.CallsInto table)
    (hrun : s.Runs p t ⟨.success m x, l⟩) : m ++ x.chars = t.chars :=
  hrun.conserves fun q hq => (h.everywhere_faithful hp q hq).2

/-- If the bodies of the rules match only words of given languages, so do the rules. -/
theorem mem_language (h : s.Flat table rules) (languages : Nat → Language Char)
    (hlanguages : ∀ slot rule, rules[slot]? = some rule →
      rule.body.language (fun id => if id.table = table then languages id.slot else ⊤) ≤
        languages slot)
    (hrun : s.Runs p t ⟨.success m x, l⟩) :
    m ∈ p.language fun id => if id.table = table then languages id.slot else ⊤ := by
  refine hrun.mem_language (fun id rule t m x l hrule _ hm => ?_) m x rfl
  by_cases hid : id.table = table
  · simp only [rule?, hid, h.ready] at hrule
    rw [if_pos hid]
    exact hlanguages id.slot rule hrule hm
  · rw [if_neg hid]
    exact Set.mem_univ m

/-- A parser on the table recognises a language if it matches only words of it, and accepts every
word whatever follows. -/
theorem recognises (h : s.Flat table rules) (hp : p.All fun q => q.Faithful ∧ q.CallsInto table)
    (hsound : ∀ t m x l, s.Runs p t ⟨.success m x, l⟩ → m ∈ words)
    (hcomplete : ∀ m ∈ words, ∀ rest, s.Accepts p m rest) : s.Recognises p words := by
  intro t
  obtain ⟨⟨o, l⟩, hrun⟩ := Option.isSome_iff_exists.1 (h.run_isSome hp t)
  have hruns : s.Runs p t ⟨o, l⟩ := .of_step hrun
  have hfound (m : List Char) (x : Text) (hm : m ∈ words) (hx : m ++ x.chars = t.chars) :
      o = .success m x := by
    obtain ⟨l', haccepts⟩ := hcomplete m hm x.chars
    rw [hx, Text.ofList_chars, Text.ofList_chars] at haccepts
    exact congrArg Run.outcome (hruns.unique haccepts)
  refine ⟨⟨o, l⟩, hrun, fun m x => ⟨?_, fun hm => hfound m x hm.1 hm.2⟩, ?_⟩
  · rintro rfl
    exact ⟨hsound t m x l hruns, h.conserves hp hruns⟩
  · constructor
    · rintro rfl m hm ⟨rest, hrest⟩
      cases hfound m (.ofList rest) hm hrest
    · intro hnone
      cases o with
      | success m x =>
        exact absurd ⟨x.chars, h.conserves hp hruns⟩ (hnone m (hsound t m x l hruns))
      | failure x =>
        have hx : x = t := hruns.failure_eq (fun q hq => (h.everywhere_faithful hp q hq).1) rfl
        rw [hx]

end Flat

end Store

end Descent
