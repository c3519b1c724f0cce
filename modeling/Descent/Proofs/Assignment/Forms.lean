import Descent.Proofs.Assignment
import Descent.Proofs.Chain
import Descent.Proofs.Recognition

/-!
# The forms of assignments

An assignment is a name, an equals sign and a digit, with a gap on either side of the sign
(`Writes`). One grammar wants one space for each gap and the other takes any blanks; each recognises
just the assignments of its form. The sign with its gaps can also be read by a grammar of its own,
between a parser for the name and one for the digit, in a sequence that makes a value of the name and
the number. All three do the same wherever they succeed, and the last two succeed on the same texts
(`assignments_recognised`).
-/

namespace Descent.Assignment

open Computability Store

/-! ## Names, signs and digits -/

/-- A text that writes a name and a digit with an equals sign between them, and gaps as they are
allowed on either side of the sign. -/
structure Writes (gap : List Char → Prop) (name : List Char) (digit : Char) (m : List Char) :
    Prop where
  named : name ≠ []
  letters : ∀ c ∈ name, c.isAlpha = true
  isDigit : digit.isDigit = true
  form : ∃ before after, gap before ∧ gap after ∧ m = name ++ before ++ ['='] ++ after ++ [digit]

/-- Any number of spaces, tabs and line feeds. -/
def Blanks (m : List Char) : Prop := ∀ c ∈ m, c ∈ [' ', '\n', '\t']

/-- One space. -/
def OneSpace (m : List Char) : Prop := m = [' ']

/-- The assignments with gaps of one kind. -/
def assignments (gap : List Char → Prop) : Language Char :=
  {m | ∃ name digit, Writes gap name digit m}

variable {s : Store} {table : Nat} {m n name rest : List Char} {digit : Char} {t x y : Text}
  {l l' : Log} {gap gap' : List Char → Prop}

/-- More kinds of gaps allow for more assignments. -/
theorem Writes.mono (h : Writes gap name digit m) (hgap : ∀ n, gap n → gap' n) :
    Writes gap' name digit m := by
  obtain ⟨before, after, hbefore, hafter, hm⟩ := h.form
  exact ⟨h.named, h.letters, h.isDigit, before, after, hgap before hbefore, hgap after hafter, hm⟩

/-- A space is a blank. -/
theorem OneSpace.blanks (h : OneSpace m) : Blanks m := by
  rw [h]
  simp [Blanks]

/-- Names are letters in a row. -/
theorem mem_names_iff :
    m ∈ single (·.isAlpha) * (single (·.isAlpha))∗ ↔ m ≠ [] ∧ ∀ c ∈ m, c.isAlpha = true := by
  constructor
  · rintro ⟨_, ⟨c, hc, rfl⟩, name, hname, rfl⟩
    exact ⟨List.cons_ne_nil c name, List.forall_mem_cons.2 ⟨hc, mem_kstar_single_iff.1 hname⟩⟩
  · rintro ⟨hne, hletters⟩
    obtain ⟨c, name, rfl⟩ := List.exists_cons_of_ne_nil hne
    obtain ⟨hc, hname⟩ := List.forall_mem_cons.1 hletters
    exact ⟨[c], ⟨c, hc, rfl⟩, name, mem_kstar_single_iff.2 hname, rfl⟩

/-- The sign stands between two gaps. -/
theorem mem_equals_iff :
    m ∈ equals ↔ ∃ before after, Blanks before ∧ Blanks after ∧ m = before ++ ['='] ++ after := by
  constructor
  · rintro ⟨_, ⟨before, hbefore, _, ⟨c, rfl, rfl⟩, rfl⟩, after, hafter, rfl⟩
    exact ⟨before, after, mem_kstar_single_iff.1 hbefore, mem_kstar_single_iff.1 hafter, rfl⟩
  · rintro ⟨before, after, hbefore, hafter, rfl⟩
    exact ⟨_, ⟨before, mem_kstar_single_iff.2 hbefore, _, ⟨'=', rfl, rfl⟩, rfl⟩, after,
      mem_kstar_single_iff.2 hafter, rfl⟩

/-- A name, a sign between blanks, and a digit make an assignment. -/
theorem writes_of_parts {c : Char} (hname : name ∈ single (·.isAlpha) * (single (·.isAlpha))∗)
    (hsign : m ∈ equals) (hdigit : c.isDigit = true) : Writes Blanks name c (name ++ m ++ [c]) := by
  obtain ⟨hne, hletters⟩ := mem_names_iff.1 hname
  obtain ⟨before, after, hbefore, hafter, rfl⟩ := mem_equals_iff.1 hsign
  exact ⟨hne, hletters, hdigit, before, after, hbefore, hafter, by simp⟩

/-- An assignment is made of a name, a sign between blanks, and a digit. -/
theorem Writes.exists_parts (h : Writes Blanks name digit m) :
    name ∈ single (·.isAlpha) * (single (·.isAlpha))∗ ∧
      ∃ sign ∈ equals, m = name ++ (sign ++ [digit]) := by
  obtain ⟨before, after, hbefore, hafter, rfl⟩ := h.form
  exact ⟨mem_names_iff.2 ⟨h.named, h.letters⟩, before ++ ['='] ++ after,
    mem_equals_iff.2 ⟨before, after, hbefore, hafter, rfl⟩, by simp⟩

/-- The words of the grammar are the assignments with blanks as one likes. -/
theorem words_eq : words = assignments Blanks := by
  ext m
  constructor
  · rintro ⟨_, ⟨name, hname, sign, hsign, rfl⟩, _, ⟨c, hc, rfl⟩, rfl⟩
    exact ⟨name, c, writes_of_parts hname hsign hc⟩
  · rintro ⟨name, digit, h⟩
    obtain ⟨hname, sign, hsign, rfl⟩ := h.exists_parts
    exact ⟨_, ⟨name, hname, sign, hsign, rfl⟩, _, ⟨digit, h.isDigit, rfl⟩, by simp⟩

/-! ## Blanks as one likes -/

/-- The grammar recognises the assignments with any blanks. -/
theorem recognises_entryIn (s : Store) :
    (builtStore s).Recognises (entryIn s) (assignments Blanks) := by
  rw [← words_eq]
  exact (flat_rules (table_builtStore s)).recognises (Flat.all_entry ..)
    (fun t m x l => mem_words_of_runs (table_builtStore s))
    fun m hm rest => accepts_assign (table_builtStore s) hm rest

/-! ## One space -/

/-- The rules with one space on either side, as they stand in their table. -/
def strictRules : Array Rule :=
  #[⟨"assign", .many1 .anyLetter >>> .literal " = ".toList >>> .anyNumber⟩]

/-- Building the strict grammar always succeeds, and adds the table of its rules to the store. -/
theorem strict_eq {σ : Type} (site : Site σ) :
    strict site = (.ok (.entry "assign" ⟨site.store.tables.size, 0⟩),
      { site with
        store := site.store.adding strictRules
        log := site.log ++ [.grammarBuilt 1 "assign"] }) :=
  Grammar.build_eq site rfl rfl
    (.cons ⟨rfl, fun _ => rfl⟩ .nil : List.Forall₂ _ strictDeclarations strictRules.toList)

/-- The only rule calls none. -/
theorem flat_strictRules (s : Store) : (s.adding strictRules).Flat s.tables.size strictRules where
  ready := s.table_adding strictRules
  faithful := by
    simp [strictRules, Parser.shiftRight_eq, Parser.All, Parser.Faithful, Parser.Honest,
      Parser.Conserving, Parser.CallsInto, Parser.target?]
  takes := by simp [strictRules, Parser.shiftRight_eq, Parser.takes]
  headless := by simp [strictRules, Parser.shiftRight_eq, Parser.takes, Parser.heads]

/-- Assignments with one space on either side are names, given texts and digits in a row. -/
theorem strict_words_eq :
    single (·.isAlpha) * (single (·.isAlpha))∗ * {" = ".toList} * single (·.isDigit) =
      assignments OneSpace := by
  ext m
  constructor
  · rintro ⟨_, ⟨name, hname, _, rfl, rfl⟩, _, ⟨c, hc, rfl⟩, rfl⟩
    obtain ⟨hne, hletters⟩ := mem_names_iff.1 hname
    exact ⟨name, c, hne, hletters, hc, [' '], [' '], rfl, rfl, by simp⟩
  · rintro ⟨name, digit, h⟩
    obtain ⟨_, _, rfl, rfl, rfl⟩ := h.form
    exact ⟨_, ⟨name, mem_names_iff.2 ⟨h.named, h.letters⟩, _, rfl, rfl⟩, _,
      ⟨digit, h.isDigit, rfl⟩, by simp⟩

/-- An assignment with one space on either side is accepted, whatever follows it. -/
theorem accepts_strict (htable : s.table table = .ready strictRules)
    (hm : m ∈ assignments OneSpace) (rest : List Char) :
    s.Accepts (.entry "assign" ⟨table, 0⟩) m rest := by
  obtain ⟨name, digit, h⟩ := hm
  obtain ⟨_, _, rfl, rfl, rfl⟩ := h.form
  have hrule : s.rule? ⟨table, 0⟩ =
      some ⟨"assign", .many1 .anyLetter >>> .literal " = ".toList >>> .anyNumber⟩ := by
    simp only [Store.rule?, htable]
    rfl
  have hname : s.Accepts (.many1 .anyLetter) name (" = ".toList ++ ([digit] ++ rest)) :=
    .many1_char rfl h.letters h.named (forall_head_cons (by decide))
  have hall := Accepts.andThen (.andThen hname (.literal " = ".toList))
    (.of_char rfl h.isDigit : s.Accepts .anyNumber [digit] rest)
  exact .rule rfl hrule (by simpa [Parser.shiftRight_eq] using hall)

/-- The strict grammar recognises the assignments with one space on either side. -/
theorem recognises_strict (s : Store) :
    (s.adding strictRules).Recognises (.entry "assign" ⟨s.tables.size, 0⟩)
      (assignments OneSpace) := by
  refine (flat_strictRules s).recognises (Flat.all_entry ..) (fun t m x l hrun => ?_)
    fun m hm rest => accepts_strict (s.table_adding strictRules) hm rest
  have hm := (flat_strictRules s).mem_language (fun _ => assignments OneSpace) ?_ hrun
  · simpa [Parser.language] using hm
  · intro slot rule hrule
    cases slot with
    | zero =>
      cases hrule
      exact strict_words_eq.le
    | succ slot => cases hrule

/-! ## A sequence with a value -/

/-- The rule for the sign by itself. -/
def signDeclarations {σ : Type} : List (Declaration σ) :=
  [⟨"equals", fun _ => return .thenOptional (.optionalThen .whitespace (.one '=')) .whitespace⟩]

/-- Builds a grammar for the sign by itself, with blanks as one likes. -/
def sign {σ : Type} : Build σ (Except GrammarError Parser) :=
  Grammar.build signDeclarations "equals"

/-- A name, a sign, and a digit, in a sequence of which the value is the name and the number. -/
def typed (sign : Parser) : Sequence Value :=
  ⟨[.many1 .anyLetter, sign, .anyNumber], Combine.assign.value, List.cons_ne_nil _ _⟩

/-- The rule for the sign, as it stands in its table. -/
def signRules : Array Rule :=
  #[⟨"equals", .thenOptional (.optionalThen .whitespace (.one '=')) .whitespace⟩]

/-- Building the grammar for the sign always succeeds. -/
theorem sign_eq {σ : Type} (site : Site σ) :
    sign site = (.ok (.entry "equals" ⟨site.store.tables.size, 0⟩),
      { site with
        store := site.store.adding signRules
        log := site.log ++ [.grammarBuilt 1 "equals"] }) :=
  Grammar.build_eq site rfl rfl
    (.cons ⟨rfl, fun _ => rfl⟩ .nil : List.Forall₂ _ signDeclarations signRules.toList)

/-- The only rule calls none. -/
theorem flat_signRules (s : Store) : (s.adding signRules).Flat s.tables.size signRules where
  ready := s.table_adding signRules
  faithful := by
    simp [signRules, Parser.All, Parser.Faithful, Parser.Honest, Parser.Conserving,
      Parser.CallsInto, Parser.target?]
  takes := by simp [signRules, Parser.takes]
  headless := by simp [signRules, Parser.takes, Parser.heads]

/-- The entry of the grammar for the sign, built in this store. -/
def signIn (s : Store) : Parser := .entry "equals" ⟨s.tables.size, 0⟩

/-- What the grammar for the sign matches is a sign with blanks around it. -/
theorem mem_equals_of_runs (h : (s.adding signRules).Runs (signIn s) t ⟨.success m x, l⟩) :
    m ∈ equals := by
  have hm := (flat_signRules s).mem_language (fun _ => equals) ?_ h
  · simpa [signIn, Parser.language] using hm
  · intro slot rule hrule
    cases slot with
    | zero =>
      cases hrule
      exact (language_sign _).le
    | succ slot => cases hrule

/-- The parsers of the sequence are faithful, and so is what joins them. -/
theorem all_typed (s : Store) : ∀ p ∈ .many1 .anyLetter >>> (signIn s >>> .anyNumber) ::
    (typed (signIn s)).parsers, p.All fun q => q.Faithful ∧ q.CallsInto s.tables.size := by
  simp [typed, signIn, Parser.shiftRight_eq, Parser.All, Parser.Faithful, Parser.Honest,
    Parser.Conserving, Parser.CallsInto, Parser.target?]

/-- The joined parsers accept an assignment with any blanks, whatever follows it. -/
theorem accepts_typed (hm : m ∈ assignments Blanks) (rest : List Char) :
    (s.adding signRules).Accepts (.many1 .anyLetter >>> (signIn s >>> .anyNumber)) m rest := by
  obtain ⟨name, digit, h⟩ := hm
  obtain ⟨-, sign, hsign, rfl⟩ := h.exists_parts
  have hrule : (s.adding signRules).rule? ⟨s.tables.size, 0⟩ =
      some ⟨"equals", .thenOptional (.optionalThen .whitespace (.one '=')) .whitespace⟩ := by
    simp only [Store.rule?, table_adding]
    rfl
  have hdigit : ∀ c ∈ ([digit] ++ rest).head?, c ∉ [' ', '\n', '\t'] :=
    forall_head_cons (not_blank_of_isDigit h.isDigit)
  have hname : (s.adding signRules).Accepts (.many1 .anyLetter) name (sign ++ ([digit] ++ rest)) :=
    .many1_char rfl h.letters h.named (head_equals hsign)
  have hsign : (s.adding signRules).Accepts (signIn s) sign ([digit] ++ rest) :=
    .rule rfl hrule (accepts_sign hsign hdigit)
  refine .andThen ?_ (.andThen hsign (.of_char rfl h.isDigit))
  rwa [List.append_assoc]

/-- A digit is that of a number up to nine, which it writes. -/
theorem exists_digitChar (h : digit.isDigit = true) :
    ∃ n ≤ 9, digit = n.digitChar ∧ byteValue? [digit] = some n := by
  have hrange : 48 ≤ digit.toNat ∧ digit.toNat ≤ 57 := by
    simpa [Char.isDigit, UInt32.le_iff_toNat_le] using h
  have hall : ∀ n ≤ 9, n.digitChar.toNat = 48 + n ∧ byteValue? [n.digitChar] = some n := by decide
  obtain ⟨n, hn⟩ := Nat.exists_eq_add_of_le hrange.1
  have hle : n ≤ 9 := by omega
  obtain ⟨hcode, hvalue⟩ := hall n hle
  have heq : digit = n.digitChar := Char.toNat_inj.1 (by omega)
  exact ⟨n, hle, heq, heq ▸ hvalue⟩

/-- Where the parsers of the sequence succeed one after the other, they have read an assignment, and
the value is its name and its number. -/
theorem exists_of_successive {ms : List (List Char)}
    (h : (s.adding signRules).Successive (typed (signIn s)).parsers t (some (ms, y)) l) :
    ∃ name n m, n ≤ 9 ∧ Writes Blanks name n.digitChar m ∧ m ++ y.chars = t.chars ∧
      Combine.assign.value ms = .assigned name n := by
  have hflat := flat_signRules s
  obtain ⟨-, hnameAll, hsignAll, hdigitAll⟩ :
      _ ∧ (Parser.many1 .anyLetter).All _ ∧ (signIn s).All _ ∧ Parser.anyNumber.All _ := by
    simpa [typed] using all_typed s
  cases h with
  | cons hname hrest =>
    cases hrest with
    | cons hsign hrest =>
      cases hrest with
      | cons hdigit hnil =>
        cases hnil
        rename_i name x₁ l₁ sign x₂ l₂ digits l₃
        have hnames := hflat.mem_language (fun _ => ⊤) (fun _ _ _ => le_top) hname
        have hdigits := hflat.mem_language (fun _ => ⊤) (fun _ _ _ => le_top) hdigit
        obtain ⟨digit, hisDigit, rfl⟩ := hdigits
        obtain ⟨n, hn, rfl, hvalue⟩ := exists_digitChar hisDigit
        have hwrites := writes_of_parts hnames (mem_equals_of_runs hsign) hisDigit
        refine ⟨name, n, _, hn, hwrites, ?_, ?_⟩
        · have h₁ := hflat.conserves hnameAll hname
          have h₂ := hflat.conserves hsignAll hsign
          have h₃ := hflat.conserves hdigitAll hdigit
          rw [← h₁, ← h₂, ← h₃]
          simp
        · simp [Combine.value, hvalue]

/-- The sequence always comes to a result: the name and the number of the assignment at the front of
the text, or a failure if there is none. -/
theorem exists_typed_run (s : Store) (t : Text) :
    ∃ made log, (typed (signIn s)).run (s.adding signRules) t = some (made, log) ∧
      ((∃ name n m, n ≤ 9 ∧ Writes Blanks name n.digitChar m ∧ m <+: t.chars ∧
          made = .ok (.assigned name n)) ∨
        (∀ m ∈ assignments Blanks, ¬m <+: t.chars) ∧ made = .error (.failure t)) := by
  have hflat := flat_signRules s
  obtain ⟨hjoined, hparts⟩ := List.forall_mem_cons.1 (all_typed s)
  obtain ⟨⟨o, log⟩, hrun⟩ := Option.isSome_iff_exists.1 (hflat.run_isSome hjoined t)
  have hrun := Runs.of_step hrun
  have hchain : Parser.Chain (typed (signIn s)).parsers _ :=
    .andThen (.one (.many1 .anyLetter)) (.andThen (.one (signIn s)) (.one .anyNumber))
  obtain ⟨made, hmade, hagrees⟩ := Sequence.run_of_agrees (.of_chain _ hchain)
    (fun p hp _ _ hruns => hflat.run_eq (hparts p hp) hruns) hrun
  refine ⟨made, log, hmade, ?_⟩
  cases hagrees with
  | value hall =>
    obtain ⟨name, n, m, hn, hwrites, hm, hvalue⟩ := exists_of_successive hall
    exact .inl ⟨name, n, m, hn, hwrites, ⟨_, hm⟩, congrArg Except.ok hvalue⟩
  | failure hall _ =>
    refine .inr ⟨?_, rfl⟩
    rintro m hm ⟨rest, hrest⟩
    obtain ⟨l, haccepts⟩ := accepts_typed hm rest
    rw [hrest, Text.ofList_chars] at haccepts
    cases hrun.unique haccepts

/-! ## All three together -/

/-- The grammars for assignments, with blanks as one likes and with one space on either side of the
sign, and the grammar for the sign, are built without an error, wherever they are built. The first
two recognise the assignments of their form, and if the second succeeds on a text, the first has the
same outcome. The sequence succeeds where the first grammar does, and its value is the name and the
number of the assignment that the grammar matches; anywhere else it hands back the text. -/
theorem assignments_recognised {σ : Type} (site : Site σ) :
    ∃ loose tight equals : Parser, ∃ s₁ s₂ s₃ : Site σ,
      grammar site = (.ok loose, s₁) ∧ strict site = (.ok tight, s₂) ∧
      sign site = (.ok equals, s₃) ∧
      s₁.store.Recognises loose (assignments Blanks) ∧
      s₂.store.Recognises tight (assignments OneSpace) ∧
      Sequence.ofList [.many1 .anyLetter, equals, .anyNumber] Combine.assign.value =
        .ok (typed equals) ∧
      ∀ t, ∃ r r' made log, s₁.store.run loose t = some r ∧ s₂.store.run tight t = some r' ∧
        (typed equals).run s₃.store t = some (made, log) ∧
        (r'.outcome.ok = true → r.outcome = r'.outcome) ∧
        (∀ m x, r.outcome = .success m x → ∃ name n, n ≤ 9 ∧
          Writes Blanks name n.digitChar m ∧ made = .ok (.assigned name n)) ∧
        (r.outcome.ok = false → made = .error (.failure t)) := by
  have hloose := recognises_entryIn site.store
  have htight := recognises_strict site.store
  refine ⟨_, _, _, _, _, _, grammar_eq site, strict_eq site, sign_eq site, hloose, htight, rfl,
    fun t => ?_⟩
  obtain ⟨⟨o, l⟩, hr, hsuccess, hfailure⟩ := hloose t
  obtain ⟨⟨o', l'⟩, hr', hsuccess', -⟩ := htight t
  obtain ⟨made, log, hmade, hcases⟩ := exists_typed_run site.store t
  refine ⟨_, _, made, log, hr, hr', hmade, ?_, ?_, ?_⟩
  · intro hok
    cases o' with
    | failure x => cases hok
    | success m x =>
      obtain ⟨⟨name, digit, hwrites⟩, hx⟩ := (hsuccess' m x).1 rfl
      exact (hsuccess m x).2 ⟨⟨name, digit, hwrites.mono fun n => OneSpace.blanks⟩, hx⟩
  · rintro m x rfl
    obtain ⟨hm, hx⟩ := (hsuccess m x).1 rfl
    rcases hcases with ⟨name, n, m', hn, hwrites, ⟨rest, hrest⟩, rfl⟩ | ⟨hnone, -⟩
    · have hsame := (hsuccess m' (.ofList rest)).2 ⟨⟨name, _, hwrites⟩, hrest⟩
      cases hsame
      exact ⟨name, n, hn, hwrites, rfl⟩
    · exact absurd ⟨x.chars, hx⟩ (hnone m hm)
  · intro hok
    rcases hcases with ⟨name, n, m, hn, hwrites, ⟨rest, hrest⟩, rfl⟩ | ⟨-, rfl⟩
    · obtain rfl := (hsuccess m (.ofList rest)).2 ⟨⟨name, _, hwrites⟩, hrest⟩
      cases hok
    · rfl

end Descent.Assignment
