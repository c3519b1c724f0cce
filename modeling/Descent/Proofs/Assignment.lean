import Descent.Grammar.Assignment
import Descent.Proofs.Json.Rules
import Descent.Proofs.Recognition

/-!
# Assignments

The grammar that takes any blanks around the equals sign is built without an error, wherever it is
built (`grammar_eq`). Only one of its rules calls the other, and not before it has taken a letter; so
all runs of them end. They succeed just on the texts that start with an assignment, whatever follows
it (`ok_iff_starts`).
-/

namespace Descent.Assignment

/-- The rules as they stand in their table. -/
def rules (table : Nat) : Array Rule :=
  #[⟨"equals", .thenOptional (.optionalThen .whitespace (.one '=')) .whitespace⟩,
    ⟨"assign", .many1 .anyLetter >>> .reference "equals" ⟨table, 0⟩ >>> .anyNumber⟩]

/-- The store after the grammar has been built. -/
def builtStore (s : Store) : Store := ⟨s.tables.push (.ready (rules s.tables.size))⟩

/-- The entry of the grammar, built in this store. -/
def entryIn (s : Store) : Parser := .entry "assign" ⟨s.tables.size, 1⟩

/-- Building the grammar always succeeds, and adds the table of its rules to the store. -/
theorem grammar_eq {σ : Type} (site : Site σ) :
    grammar site = (.ok (entryIn site.store),
      { site with
        store := builtStore site.store
        log := site.log ++ [.grammarBuilt 2 "assign"] }) := by
  have hdeclared : List.Forall₂ (fun (d : Declaration σ) rule => d.name = rule.name ∧
      ∀ site', d.builder ⟨site.store.tables.size, ["equals", "assign"], d.name⟩ site' =
        (rule.body, site')) declarations (rules site.store.tables.size).toList := by
    repeat refine .cons ⟨rfl, fun _ => rfl⟩ ?_
    exact .nil
  have hrepeated : Grammar.firstRepeated? [] ["equals", "assign"] = none := by decide
  have hstart : ["equals", "assign"].idxOf? "assign" = some 1 := by decide
  exact Grammar.build_eq site hrepeated hstart hdeclared

/-- The rules are there once the grammar has been built. -/
theorem table_builtStore (s : Store) :
    (builtStore s).table s.tables.size = .ready (rules s.tables.size) := by
  simp [builtStore, Store.table]

/-- No rule calls another one before it has taken something. -/
theorem flat_rules {s : Store} {table : Nat} (htable : s.table table = .ready (rules table)) :
    s.Flat table (rules table) where
  ready := htable
  faithful := by
    simp [rules, Parser.shiftRight_eq, Parser.All, Parser.Faithful, Parser.Honest,
      Parser.Conserving, Parser.CallsInto, Parser.target?]
  takes := by simp [rules, Parser.shiftRight_eq, Parser.takes]
  headless := by simp [rules, Parser.shiftRight_eq, Parser.takes, Parser.heads]

/-- Every run of the entry ends. -/
theorem run_isSome (s : Store) (t : Text) : ((builtStore s).run (entryIn s) t).isSome :=
  (flat_rules (table_builtStore s)).run_isSome (Store.Flat.all_entry ..) t

/-! ## What is accepted -/

open Computability Store

/-- Any number of blanks. -/
def blanks : Language Char := (single (· ∈ [' ', '\n', '\t']))∗

/-- The equals sign, with blanks around it. -/
def equals : Language Char := blanks * single (· = '=') * blanks

/-- A name, an equals sign and a digit. -/
def words : Language Char :=
  single (·.isAlpha) * (single (·.isAlpha))∗ * equals * single (·.isDigit)

/-- The languages of the rules, and of any rules of other grammars. -/
def languages (table : Nat) (id : RuleId) : Language Char :=
  if id.table = table then if id.slot = 0 then equals else words else ⊤

variable {s : Store} {table : Nat} {m rest : List Char} {t x : Text} {l : Log}

/-- Blanks that may be missing are blanks, so the rule for the sign matches just signs. -/
theorem language_sign (languages : RuleId → Language Char) :
    (Parser.thenOptional (.optionalThen .whitespace (.one '=')) .whitespace).language languages =
      equals := by
  have hblanks : blanks + 1 = blanks := add_eq_left_iff_le.2 one_le_kstar
  change (blanks + 1) * single (· = '=') * (blanks + 1) = blanks * single (· = '=') * blanks
  rw [hblanks]

/-- Whatever is matched is an assignment. -/
theorem mem_words_of_runs (htable : s.table table = .ready (rules table))
    (h : s.Runs (.entry "assign" ⟨table, 1⟩) t ⟨.success m x, l⟩) : m ∈ words := by
  have hentry : (Parser.entry "assign" ⟨table, 1⟩).language (languages table) = words := by
    simp [Parser.language, languages]
  rw [← hentry]
  refine (flat_rules htable).mem_language (fun slot => if slot = 0 then equals else words)
    (fun slot rule hrule => ?_) h
  rcases slot with _ | _ | slot
  · cases hrule
    exact (language_sign _).le
  · cases hrule
    change single (·.isAlpha) * (single (·.isAlpha))∗ * languages table ⟨table, 0⟩ *
      single (·.isDigit) ≤ words
    rw [languages, if_pos rfl, if_pos rfl]
    exact le_rfl
  · cases hrule

/-- No digit is a blank. -/
theorem not_blank_of_isDigit {c : Char} (hc : c.isDigit = true) : c ∉ [' ', '\n', '\t'] := by
  have hblank : ∀ d ∈ [' ', '\n', '\t'], d.isDigit = false := forall_mem_of_all (by decide)
  intro hmem
  rw [hblank c hmem] at hc
  cases hc

/-- Blanks are accepted, or found missing, where none follow. -/
theorem accepts_whitespace (hm : ∀ c ∈ m, c ∈ [' ', '\n', '\t'])
    (hrest : ∀ c ∈ rest.head?, c ∉ [' ', '\n', '\t']) :
    s.Accepts (.orElse .whitespace .empty) m rest := by
  have hspan : (m ++ rest).takeWhile (fun c => decide (c = ' ' ∨ c = '\n' ∨ c = '\t')) = m := by
    have hall : ∀ c ∈ m, decide (c = ' ' ∨ c = '\n' ∨ c = '\t') = true := fun c hc => by
      simpa using hm c hc
    rw [List.takeWhile_append_of_pos hall]
    cases rest with
    | nil => simp
    | cons c rest =>
      have hc := hrest c rfl
      rw [List.takeWhile_cons_of_neg (by simpa using hc), List.append_nil]
  by_cases hnil : m = []
  · subst hnil
    refine .missing (.of_direct rfl (x := .ofList rest) ?_)
    rw [List.nil_append] at hspan
    simp only [Step.span, Text.chars_ofList, hspan]
    rfl
  · refine .first (.of_direct rfl ?_)
    simp only [Step.span, Text.chars_ofList, hspan, List.isEmpty_iff, hnil, if_false]
    congr 1
    exact Text.ext (by simp)

/-- The equals sign is accepted with the blanks around it. -/
theorem accepts_sign (hm : m ∈ equals) (hrest : ∀ c ∈ rest.head?, c ∉ [' ', '\n', '\t']) :
    s.Accepts (.thenOptional (.optionalThen .whitespace (.one '=')) .whitespace) m rest := by
  obtain ⟨_, ⟨lead, hlead, _, ⟨c, rfl, rfl⟩, rfl⟩, trail, htrail, rfl⟩ := hm
  have hlead : s.Accepts (.orElse .whitespace .empty) lead (['='] ++ (trail ++ rest)) :=
    accepts_whitespace (mem_kstar_single_iff.1 hlead) (forall_head_cons (by decide))
  have htrail : s.Accepts (.orElse .whitespace .empty) trail rest :=
    accepts_whitespace (mem_kstar_single_iff.1 htrail) hrest
  exact .thenOptional (.optionalThen hlead (.of_char rfl (by simp))) htrail

/-- The rule for the equals sign accepts it with the blanks around it. -/
theorem accepts_equals (htable : s.table table = .ready (rules table)) (hm : m ∈ equals)
    (hrest : ∀ c ∈ rest.head?, c ∉ [' ', '\n', '\t']) :
    s.Accepts (.reference "equals" ⟨table, 0⟩) m rest := by
  have hrule : s.rule? ⟨table, 0⟩ =
      some ⟨"equals", .thenOptional (.optionalThen .whitespace (.one '=')) .whitespace⟩ := by
    simp only [Store.rule?, htable]
    rfl
  exact .rule rfl hrule (accepts_sign hm hrest)

/-- No letter follows a name. -/
theorem head_equals (hm : m ∈ equals) : ∀ c ∈ (m ++ rest).head?, c.isAlpha = false := by
  obtain ⟨_, ⟨lead, hlead, _, ⟨c, rfl, rfl⟩, rfl⟩, trail, _, rfl⟩ := hm
  cases lead with
  | nil => exact forall_head_cons (by decide)
  | cons c lead =>
    have hblank : ∀ d ∈ [' ', '\n', '\t'], d.isAlpha = false := forall_mem_of_all (by decide)
    exact forall_head_cons (hblank c (mem_kstar_single_iff.1 hlead c List.mem_cons_self))

/-- An assignment is accepted, whatever follows it. -/
theorem accepts_assign (htable : s.table table = .ready (rules table)) (hm : m ∈ words)
    (rest : List Char) : s.Accepts (.entry "assign" ⟨table, 1⟩) m rest := by
  obtain ⟨_, ⟨_, ⟨_, ⟨c, hc, rfl⟩, name, hname, rfl⟩, sign, hsign, rfl⟩, _, ⟨d, hd, rfl⟩, rfl⟩ := hm
  have hrule : s.rule? ⟨table, 1⟩ =
      some ⟨"assign", .many1 .anyLetter >>> .reference "equals" ⟨table, 0⟩ >>> .anyNumber⟩ := by
    simp only [Store.rule?, htable]
    rfl
  have hletters : ∀ e ∈ c :: name, e.isAlpha = true :=
    List.forall_mem_cons.2 ⟨hc, mem_kstar_single_iff.1 hname⟩
  have hname : s.Accepts (.many1 .anyLetter) ([c] ++ name) (sign ++ ([d] ++ rest)) :=
    .many1_char rfl hletters (List.cons_ne_nil c name) (head_equals hsign)
  have hsign : s.Accepts (.reference "equals" ⟨table, 0⟩) sign ([d] ++ rest) :=
    accepts_equals htable hsign (forall_head_cons (not_blank_of_isDigit hd))
  exact .rule rfl hrule (.andThen (.andThen hname hsign) (.of_char rfl hd))

/-- A run succeeds just on the texts that start with an assignment. -/
theorem ok_iff_starts (htable : s.table table = .ready (rules table)) {r : Run}
    (h : s.Runs (.entry "assign" ⟨table, 1⟩) t r) :
    r.outcome.ok = true ↔ ∃ m ∈ words, m <+: t.chars := by
  obtain ⟨o, l⟩ := r
  constructor
  · intro hok
    cases o with
    | success m x =>
      have hconserves := (flat_rules htable).conserves (Flat.all_entry ..) h
      exact ⟨m, mem_words_of_runs htable h, x.chars, hconserves⟩
    | failure x => cases hok
  · rintro ⟨m, hm, rest, hrest⟩
    obtain ⟨l', haccepts⟩ := accepts_assign htable hm rest
    rw [hrest, Text.ofList_chars] at haccepts
    rw [h.unique haccepts]
    rfl

/-- An assignment ends with its digit, so a character at the end that is no digit does not matter. -/
theorem starts_concat_iff {c : Char} (hc : c.isDigit = false) :
    (∃ m ∈ words, m <+: rest ++ [c]) ↔ ∃ m ∈ words, m <+: rest := by
  constructor
  · rintro ⟨m, hm, hprefix⟩
    refine ⟨m, hm, (List.prefix_concat_iff.1 hprefix).resolve_left ?_⟩
    rintro rfl
    obtain ⟨front, _, _, ⟨d, hd, rfl⟩, heq⟩ := hm
    obtain ⟨_, hsame⟩ := List.append_inj' heq rfl
    cases hsame
    rw [hc] at hd
    cases hd
  · rintro ⟨m, hm, hprefix⟩
    exact ⟨m, hm, hprefix.trans (List.prefix_append rest [c])⟩

end Descent.Assignment
