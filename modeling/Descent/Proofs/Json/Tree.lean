import Descent.Proofs.Json.Recursion
import Descent.Proofs.Json.Trailing

/-!
# Derivation trees of JSON texts

A derivation of a JSON text is a tree, and every character of the text is a leaf of it, inside some
arrays and objects. The scan for nesting knows nothing of trees. Still it finds the greatest number of
arrays and objects that any character of the text is in, however deep that is, and this is the number
in the event of a document that is refused (`nestingDepth_isGreatest`).
-/

namespace Descent

/-! ## Objections -/

/-- A parser that raises no objection by itself. -/
def Parser.Unguarded : Parser → Prop
  | guarded _ _ => False
  | _ => True

/-- Simpler forms raise no objections. -/
theorem Parser.unguarded_neutral : Neutral Unguarded :=
  ⟨fun _ _ => trivial, fun _ _ => trivial, fun _ _ => trivial, trivial⟩

/-- Where nothing is guarded, no run says that a document nests too deeply. -/
theorem Store.Runs.nestedTooDeeply_not_mem {s : Store} {p : Parser} {t : Text} {r : Run}
    (h : s.Runs p t r) (hp : s.Everywhere Parser.Unguarded p) (depth limit : Nat) :
    .nestedTooDeeply depth limit ∉ r.log := by
  have happend {l l' : Log} (hl : .nestedTooDeeply depth limit ∉ l)
      (hl' : .nestedTooDeeply depth limit ∉ l') : .nestedTooDeeply depth limit ∉ l ++ l' :=
    fun hmem => (List.mem_append.1 hmem).elim hl hl'
  induction h with
  | direct t _ => exact List.not_mem_nil
  | expand hexpand _ ih => exact ih (hp.expand Parser.unguarded_neutral hexpand)
  | first b _ ih => exact ih (hp.child (by simp [Parser.children]))
  | second _ _ iha ihb =>
    exact happend (iha (hp.child (by simp [Parser.children])))
      (ihb (hp.child (by simp [Parser.children])))
  | breaks hjoins _ ih => exact ih (hp.joins hjoins).1
  | breaksLate hjoins _ _ iha ihb | joins hjoins _ _ iha ihb =>
    exact happend (iha (hp.joins hjoins).1) (ihb (hp.joins hjoins).2)
  | stop _ ih | last _ _ ih | never _ ih => exact ih (hp.child (by simp [Parser.children]))
  | more _ _ _ ihb ihrest => exact happend (ihb (hp.child (by simp [Parser.children]))) (ihrest hp)
  | once _ _ _ ih => exact ih (.intro trivial (fun c hc => hp.child hc) (by simp [Parser.target?]))
  | objected body he => exact hp.self.elim
  | admitted _ _ ih => exact hp.self.elim
  | dead t _ _ => simp
  | missing t _ _ _ => exact List.not_mem_nil
  | rule htarget hrule _ ih =>
    have hbody := ih (hp.called htarget hrule)
    simp [hbody]

namespace Json

open Store Computability

namespace Standard

/-! ## Trees -/

/-- The derivation trees of a symbol, with a constructor for each rule of the grammar. -/
inductive Tree : Symbol → Type
  | scalar (m : List Char) (hm : m ∈ scalar) : Tree .value
  | empty (k : Container) (o c : List Char) (ho : o ∈ structural k.opening)
      (hc : c ∈ structural k.closing) : Tree .value
  | full (k : Container) (o : List Char) (items : Tree (.items k)) (c : List Char)
      (ho : o ∈ structural k.opening) (hc : c ∈ structural k.closing) : Tree .value
  | element (value : Tree .value) : Tree (.item .array)
  | member (n c : List Char) (value : Tree .value) (hn : n ∈ string) (hc : c ∈ structural ':') :
      Tree (.item .object)
  | last {k : Container} (item : Tree (.item k)) : Tree (.items k)
  | more {k : Container} (item : Tree (.item k)) (c : List Char) (rest : Tree (.items k))
      (hc : c ∈ structural ',') : Tree (.items k)

/-- Characters that are all in the same number of arrays and objects. -/
def level (around : Nat) (m : List Char) : List (Char × Nat) := m.map (·, around)

variable {around n : Nat} {c : Char} {m : List Char}

@[simp] theorem map_fst_level : (level around m).map Prod.fst = m :=
  (List.map_map ..).trans (List.map_id m)

@[simp] theorem mem_level_iff : (c, n) ∈ level around m ↔ c ∈ m ∧ n = around := by
  simp [level, eq_comm]

/-- If there is a character at all, one is in that number. -/
theorem exists_mem_level (around : Nat) (hm : m ≠ []) : ∃ c, (c, around) ∈ level around m := by
  obtain ⟨c, hc⟩ := List.exists_mem_of_ne_nil m hm
  exact ⟨c, mem_level_iff.2 ⟨hc, rfl⟩⟩

namespace Tree

variable {symbol : Symbol}

/-- The leaves of a tree, first to last, each with the number of arrays and objects that it is in,
when the tree itself is inside so many. What an array or object derives is in it, its brackets
included. -/
def leaves : {symbol : Symbol} → Nat → Tree symbol → List (Char × Nat)
  | _, around, scalar m _ => level around m
  | _, around, empty _ o c _ _ => level (around + 1) (o ++ c)
  | _, around, full _ o items c _ _ =>
    level (around + 1) o ++ items.leaves (around + 1) ++ level (around + 1) c
  | _, around, element value => value.leaves around
  | _, around, member n c value _ _ => level around (n ++ c) ++ value.leaves around
  | _, around, last item => item.leaves around
  | _, around, more item c rest _ => item.leaves around ++ level around c ++ rest.leaves around

/-- How deep arrays and objects nest in a tree. -/
def depth : {symbol : Symbol} → Tree symbol → Nat
  | _, scalar _ _ => 0
  | _, empty _ _ _ _ _ => 1
  | _, full _ _ items _ _ _ => items.depth + 1
  | _, element value => value.depth
  | _, member _ _ value _ _ => value.depth
  | _, last item => item.depth
  | _, more item _ rest _ => max item.depth rest.depth

/-- A tree derives its leaves, and nests as deep as it says. -/
theorem derives (τ : Tree symbol) (around : Nat) :
    Derives symbol τ.depth ((τ.leaves around).map Prod.fst) := by
  induction τ generalizing around with
  | scalar m hm => simpa only [leaves, depth, map_fst_level] using Derives.scalar hm
  | empty k o c ho hc => simpa only [leaves, depth, map_fst_level] using Derives.empty k ho hc
  | full k o items c ho hc ih =>
    simpa only [leaves, depth, List.map_append, map_fst_level] using
      Derives.full k ho (ih (around + 1)) hc
  | element value ih => exact .element (ih around)
  | member n c value hn hc ih =>
    simpa only [leaves, depth, List.map_append, map_fst_level] using
      Derives.member hn hc (ih around)
  | last item ih => exact .last (ih around)
  | more item c rest hc ihItem ihRest =>
    simpa only [leaves, depth, List.map_append, map_fst_level] using
      Derives.more (ihItem around) hc (ihRest around)

/-- Whatever is derived has a tree. -/
theorem exists_of_derives {d : Nat} (h : Derives symbol d m) :
    ∃ τ : Tree symbol, ∀ around, (τ.leaves around).map Prod.fst = m := by
  induction h with
  | scalar hm => exact ⟨.scalar _ hm, fun around => by simp only [leaves, map_fst_level]⟩
  | empty k ho hc => exact ⟨.empty k _ _ ho hc, fun around => by simp only [leaves, map_fst_level]⟩
  | full k ho _ hc ih =>
    obtain ⟨items, hitems⟩ := ih
    exact ⟨.full k _ items _ ho hc, fun around => by
      simp only [leaves, List.map_append, map_fst_level, hitems]⟩
  | element _ ih =>
    obtain ⟨value, hvalue⟩ := ih
    exact ⟨.element value, hvalue⟩
  | member hn hc _ ih =>
    obtain ⟨value, hvalue⟩ := ih
    exact ⟨.member _ _ value hn hc, fun around => by
      simp only [leaves, List.map_append, map_fst_level, hvalue]⟩
  | last _ ih =>
    obtain ⟨item, hitem⟩ := ih
    exact ⟨.last item, hitem⟩
  | more _ hc _ ihItem ihRest =>
    obtain ⟨item, hitem⟩ := ihItem
    obtain ⟨rest, hrest⟩ := ihRest
    exact ⟨.more item _ rest hc, fun around => by
      simp only [leaves, List.map_append, map_fst_level, hitem, hrest]⟩

/-- No leaf is in more arrays and objects than are around the tree and nest in it. -/
theorem le_of_mem_leaves (τ : Tree symbol) (h : (c, n) ∈ τ.leaves around) :
    n ≤ around + τ.depth := by
  induction τ generalizing around with
  | scalar m hm => exact (mem_level_iff.1 h).2.le
  | empty k o c ho hc => exact (mem_level_iff.1 h).2.le
  | full k o items c ho hc ih =>
    simp only [leaves, List.mem_append, mem_level_iff] at h
    rw [depth]
    rcases h with (⟨_, hn⟩ | h) | ⟨_, hn⟩
    · omega
    · have hn := ih h
      omega
    · omega
  | element value ih => exact ih h
  | member name c value hname hc ih =>
    simp only [leaves, List.mem_append, mem_level_iff] at h
    rcases h with ⟨_, hn⟩ | h
    · exact hn.trans_le (Nat.le_add_right _ _)
    · exact ih h
  | last item ih => exact ih h
  | more item c rest hc ihItem ihRest =>
    simp only [leaves, List.mem_append, mem_level_iff] at h
    rw [depth]
    rcases h with (h | ⟨_, hn⟩) | h
    · have hn := ihItem h
      omega
    · omega
    · have hn := ihRest h
      omega

/-- Some leaf is in as many. -/
theorem exists_mem_leaves (τ : Tree symbol) (around : Nat) :
    ∃ c, (c, around + τ.depth) ∈ τ.leaves around := by
  induction τ generalizing around with
  | scalar m hm =>
    obtain ⟨front, c, _, rfl⟩ := scalar_le_solid hm
    exact exists_mem_level around (by simp)
  | empty k o c ho hc => exact exists_mem_level (around + 1) (by simp [ne_nil_of_structural ho])
  | full k o items c ho hc ih =>
    obtain ⟨d, hd⟩ := ih (around + 1)
    rw [Nat.add_assoc, Nat.add_comm 1] at hd
    exact ⟨d, List.mem_append_left _ (List.mem_append_right _ hd)⟩
  | element value ih => exact ih around
  | member name c value hn hc ih =>
    obtain ⟨d, hd⟩ := ih around
    exact ⟨d, List.mem_append_right _ hd⟩
  | last item ih => exact ih around
  | more item c rest hc ihItem ihRest =>
    rw [depth]
    rcases le_total item.depth rest.depth with hle | hle
    · obtain ⟨d, hd⟩ := ihRest around
      rw [max_eq_right hle]
      exact ⟨d, List.mem_append_right _ hd⟩
    · obtain ⟨d, hd⟩ := ihItem around
      rw [max_eq_left hle]
      exact ⟨d, List.mem_append_left _ (List.mem_append_left _ hd)⟩

end Tree

/-- The derivation tree of a JSON text: that of its value, and the blanks around it. -/
structure Document where
  lead : List Char
  value : Tree .value
  trail : List Char
  lead_mem : lead ∈ ws
  trail_mem : trail ∈ ws

namespace Document

/-- The leaves of the tree, first to last, each with the number of arrays and objects that it is in. -/
def leaves (D : Document) : List (Char × Nat) :=
  level 0 D.lead ++ D.value.leaves 0 ++ level 0 D.trail

/-- The text that is derived. -/
def word (D : Document) : List Char := D.leaves.map Prod.fst

/-- The numbers of arrays and objects that characters of the text are in. -/
def levels (D : Document) : Set Nat := {n | ∃ c, (c, n) ∈ D.leaves}

/-- The text is JSON that nests as deep as the tree. -/
theorem word_mem_text (D : Document) : D.word ∈ text D.value.depth := by
  simp only [word, leaves, List.map_append, map_fst_level]
  exact Language.append_mem_mul (Language.append_mem_mul D.lead_mem (D.value.derives 0)) D.trail_mem

/-- Every JSON text has a tree. -/
theorem exists_of_mem_text {d : Nat} (h : m ∈ text d) : ∃ D : Document, D.word = m := by
  obtain ⟨_, ⟨lead, hlead, value, hvalue, rfl⟩, trail, htrail, rfl⟩ := h
  obtain ⟨τ, hτ⟩ := Tree.exists_of_derives hvalue
  refine ⟨⟨lead, τ, trail, hlead, htrail⟩, ?_⟩
  simp only [word, leaves, List.map_append, map_fst_level, hτ]

/-- No character is in more arrays and objects than nest in the tree, and some character is in as
many. -/
theorem isGreatest_depth (D : Document) : IsGreatest D.levels D.value.depth := by
  constructor
  · obtain ⟨c, hc⟩ := D.value.exists_mem_leaves 0
    rw [Nat.zero_add] at hc
    exact ⟨c, List.mem_append_left _ (List.mem_append_right _ hc)⟩
  · rintro n ⟨c, hc⟩
    simp only [leaves, List.mem_append, mem_level_iff] at hc
    rcases hc with (⟨_, rfl⟩ | hc) | ⟨_, rfl⟩
    · exact Nat.zero_le _
    · exact (D.value.le_of_mem_leaves hc).trans_eq (Nat.zero_add _)
    · exact Nat.zero_le _

end Document

end Standard

open Standard

variable {s : Store} {table : Nat} {t : Text} {r : Run}

/-! ## The event -/

/-- A parser inside a document: it raises no objection, and calls no document. -/
structure Inner (table : Nat) (p : Parser) : Prop where
  unguarded : p.Unguarded
  calls : ∀ id, p.target? = some id → ∃ n : RuleName, n ≠ .document ∧ id = ⟨table, n.slot⟩

/-- The parser for a rule other than the one for documents can stand there. -/
theorem all_inner_ref (table : Nat) {n : RuleName} (hn : n ≠ .document) :
    (ref table n).All (Inner table) :=
  ⟨trivial, fun _ hid => ⟨n, hn, (Option.some.inj hid).symm⟩⟩

/-- All that a rule other than the one for documents is put together from can stand there. -/
theorem all_inner_body (table : Nat) {n : RuleName} (hn : n ≠ .document) :
    (n.body (ref table)).All (Inner table) := by
  cases n with
  | document => exact absurd rfl hn
  | _ =>
    simp only [RuleName.body, Parser.or_eq, Parser.shiftRight_eq, Parser.All]
    and_intros
    all_goals first
      | exact all_inner_ref table (by decide)
      | exact ⟨trivial, by simp [Parser.target?]⟩

/-- Inside a document nothing is guarded. -/
theorem everywhere_unguarded (htable : s.table table = .ready (rules table)) {p : Parser}
    (hp : p.All (Inner table)) : s.Everywhere Parser.Unguarded p := by
  refine .of_invariant (Parser.All (Inner table)) hp (fun q hq c hc => hq.child hc) ?_
    fun q hq => hq.self.unguarded
  intro q id rule hq htarget hrule
  obtain ⟨n, hn, rfl⟩ := hq.self.calls id htarget
  rw [rule?_slot htable] at hrule
  cases hrule
  exact all_inner_body table hn

/-- A document that is not refused before it is read is not said to nest too deeply. -/
theorem nestedTooDeeply_not_mem (htable : s.table table = .ready (rules table))
    (ht : nestingDepth t.chars ≤ maxDepth) (h : s.Runs (ref table .document) t r)
    (depth limit : Nat) : .nestedTooDeeply depth limit ∉ r.log := by
  obtain ⟨o, l, hbody, rfl⟩ := h.rule_cases rfl (rule?_slot htable .document)
  rcases Runs.guarded_cases hbody with ⟨e, he, _⟩ | ⟨_, hbody⟩
  · rw [tooDeep_eq_none_iff.2 ht] at he
    cases he
  · have hplain {p : Parser} (hp : p.Unguarded) (htarget : p.target? = none) : Inner table p :=
      ⟨hp, fun _ hid => by cases htarget.symm.trans hid⟩
    have hws : (ref table .ws).All (Inner table) := all_inner_ref table (by decide)
    have hvalue : (ref table .value).All (Inner table) := all_inner_ref table (by decide)
    have hlog := hbody.nestedTooDeeply_not_mem (everywhere_unguarded htable
      ⟨hplain trivial rfl, ⟨hplain trivial rfl, ⟨hplain trivial rfl, hws, hvalue⟩, hws⟩,
        hplain trivial rfl⟩) depth limit
    simp [hlog]

/-- The derivation trees are those of the JSON texts, however deep these nest, and the scan finds the
greatest number of arrays and objects that a character of the text is in. Wherever the grammar is
built, the run on a JSON text says that it nests too deeply just if this number is greater than the
limit, and it gives this number. -/
theorem nestingDepth_isGreatest {σ : Type} (site : Site σ) :
    (∀ m, (∃ d, m ∈ text d) ↔ ∃ D : Document, D.word = m) ∧
    (∀ D : Document, IsGreatest D.levels (nestingDepth D.word)) ∧
    ∃ p site', grammar site = (.ok p, site') ∧ ∀ D : Document,
      ∃ r, site'.store.run p (.ofList D.word) = some r ∧ ∀ depth limit,
        .nestedTooDeeply depth limit ∈ r.log ↔
          IsGreatest D.levels depth ∧ maxDepth < depth ∧ limit = maxDepth := by
  have hgreatest (D : Document) : IsGreatest D.levels (nestingDepth D.word) := by
    rw [nestingDepth_of_text D.word_mem_text]
    exact D.isGreatest_depth
  refine ⟨fun m => ⟨fun ⟨_, hm⟩ => Document.exists_of_mem_text hm, ?_⟩, hgreatest,
    entryIn site.store, _, grammar_eq site, fun D => ?_⟩
  · rintro ⟨D, rfl⟩
    exact ⟨_, D.word_mem_text⟩
  · have htable := table_builtStore site.store
    obtain ⟨r, hr, hrun⟩ := exists_run_entryIn site.store (.ofList D.word)
    refine ⟨r, hr, fun depth limit => ?_⟩
    have hunique : IsGreatest D.levels depth ↔ depth = nestingDepth D.word :=
      ⟨fun h => h.unique (hgreatest D), fun h => h ▸ hgreatest D⟩
    rw [hunique]
    rcases lt_or_ge maxDepth (nestingDepth D.word) with hdeep | hflat
    · obtain rfl := eq_of_tooDeep htable hdeep hrun
      have hmem : Event.nestedTooDeeply depth limit ∈ [Event.enterRule "document" (utf8Size D.word),
          .nestedTooDeeply (nestingDepth D.word) maxDepth, .exitRule "document" false 0] ↔
          depth = nestingDepth D.word ∧ limit = maxDepth := by simp
      refine hmem.trans ⟨fun ⟨hdepth, hlimit⟩ => ⟨hdepth, hdepth ▸ hdeep, hlimit⟩,
        fun ⟨hdepth, _, hlimit⟩ => ⟨hdepth, hlimit⟩⟩
    · refine iff_of_false (nestedTooDeeply_not_mem htable hflat hrun depth limit) ?_
      rintro ⟨rfl, hdeep, _⟩
      omega

end Json

end Descent
