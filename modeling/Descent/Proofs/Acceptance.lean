import Descent.Proofs.Runs

/-!
# Accepted and rejected texts

To say what a parser does on a given text, it is enough to say which front part it accepts, or that
it rejects the text. Both are put together like the parser: an accepted part leaves the text on
which the next parser is tried, and an ordered choice comes to its second parser only where the
first rejects (`Accepts.second`). A loop takes what its body accepts, as long as that is not
nothing.
-/

namespace Descent

namespace Store

/-- The parser matches the first part of a text, when the other part follows. -/
def Accepts (s : Store) (p : Parser) (m rest : List Char) : Prop :=
  ∃ l, s.Runs p (.ofList (m ++ rest)) ⟨.success m (.ofList rest), l⟩

/-- The parser fails on a text. -/
def Rejects (s : Store) (p : Parser) (text : List Char) : Prop :=
  ∃ x l, s.Runs p (.ofList text) ⟨.failure x, l⟩

variable {s : Store} {p q a b body inner opening closing : Parser} {m n o rest : List Char}
  {c : Char}

/-! ## Single characters and given texts -/

/-- What holds of the character that is put in front holds of the first one. -/
theorem forall_head_cons {kind : Char → Prop} (hc : kind c) : ∀ d ∈ (c :: rest).head?, kind d := by
  intro d hd
  cases Option.some.inj hd
  exact hc

/-- What a function says that takes the place of a parser without parts. -/
theorem Accepts.of_direct {f : Text → Outcome} (hp : p.direct? = some f)
    (hf : f (.ofList (m ++ rest)) = .success m (.ofList rest)) : s.Accepts p m rest :=
  ⟨[], hf ▸ .direct _ hp⟩

/-- A parser for one character accepts those of its kind. -/
theorem Accepts.of_char {accept : Char → Bool} (hp : p.direct? = some (Step.char accept))
    (hc : accept c = true) : s.Accepts p [c] rest := by
  refine .of_direct hp ?_
  have hchars : (Text.ofList ([c] ++ rest)).chars = c :: rest := rfl
  rw [Step.char_of_cons hchars, if_pos hc]

/-- What a function rejects that takes the place of a parser without parts. -/
theorem Rejects.of_direct {f : Text → Outcome} {text : List Char} {x : Text}
    (hp : p.direct? = some f) (hf : f (.ofList text) = .failure x) : s.Rejects p text :=
  ⟨x, [], hf ▸ Runs.direct (.ofList text) hp⟩

/-- A parser for one character rejects a text that does not start with one of its kind. -/
theorem Rejects.of_char {accept : Char → Bool} {text : List Char}
    (hp : p.direct? = some (Step.char accept)) (hc : ∀ c ∈ text.head?, accept c = false) :
    s.Rejects p text := by
  cases text with
  | nil => exact .of_direct (x := .ofList []) hp rfl
  | cons c rest =>
    have hchars : (Text.ofList (c :: rest)).chars = c :: rest := rfl
    refine .of_direct (x := .ofList (c :: rest)) hp ?_
    rw [Step.char_of_cons hchars, hc c rfl]
    rfl

/-- A given text is accepted. -/
theorem Accepts.literal (text : List Char) : s.Accepts (.literal text) text rest := by
  refine .of_direct rfl ?_
  have hafter : (Text.ofList (text ++ rest)).after? text = some (.ofList rest) :=
    Text.after?_eq_some_iff.2 rfl
  simp [Step.literal, hafter]

/-- A text that starts with another character is rejected. -/
theorem Rejects.literal {word text : List Char} (hc : ∀ c ∈ text.head?, ∀ d ∈ word.head?, c ≠ d)
    (hword : word ≠ []) : s.Rejects (.literal word) text := by
  have hafter : (Text.ofList text).after? word = none := by
    rw [Option.eq_none_iff_forall_ne_some]
    intro x hx
    have htext : text = word ++ x.chars := Text.after?_eq_some_iff.1 hx
    obtain ⟨d, word, rfl⟩ := List.exists_cons_of_ne_nil hword
    subst htext
    exact hc d rfl d rfl rfl
  refine .of_direct (x := .ofList text) rfl ?_
  simp [Step.literal, hafter]

/-- The end is accepted where nothing is left. -/
theorem Accepts.eof : s.Accepts .eof [] [] := .of_direct rfl rfl

/-- The empty text is accepted everywhere. -/
theorem Accepts.empty : s.Accepts .empty [] rest := .of_direct rfl rfl

/-! ## Combinations -/

/-- A parser accepts what its simpler form accepts. -/
theorem Accepts.expand (hp : p.expand? = some q) (h : s.Accepts q m rest) : s.Accepts p m rest := by
  obtain ⟨l, h⟩ := h
  exact ⟨l, .expand hp h⟩

/-- A parser rejects what its simpler form rejects. -/
theorem Rejects.expand {text : List Char} (hp : p.expand? = some q) (h : s.Rejects q text) :
    s.Rejects p text := by
  obtain ⟨x, l, h⟩ := h
  exact ⟨x, l, .expand hp h⟩

/-- A choice accepts what its first parser accepts. -/
theorem Accepts.first (h : s.Accepts a m rest) : s.Accepts (.orElse a b) m rest := by
  obtain ⟨l, h⟩ := h
  exact ⟨l, .first b h⟩

/-- A choice accepts what its second parser accepts, if the first rejects it. -/
theorem Accepts.second (ha : s.Rejects a (m ++ rest)) (hb : s.Accepts b m rest) :
    s.Accepts (.orElse a b) m rest := by
  obtain ⟨x, l, ha⟩ := ha
  obtain ⟨l', hb⟩ := hb
  exact ⟨_, .second ha hb⟩

/-- A choice rejects what both its parsers reject. -/
theorem Rejects.orElse {text : List Char} (ha : s.Rejects a text) (hb : s.Rejects b text) :
    s.Rejects (.orElse a b) text := by
  obtain ⟨x, l, ha⟩ := ha
  obtain ⟨y, l', hb⟩ := hb
  exact ⟨y, _, .second ha hb⟩

/-- A sequence accepts what its parsers accept one after the other. -/
theorem Accepts.andThen (ha : s.Accepts a m (n ++ rest)) (hb : s.Accepts b n rest) :
    s.Accepts (.andThen a b) (m ++ n) rest := by
  obtain ⟨l, ha⟩ := ha
  obtain ⟨l', hb⟩ := hb
  rw [← List.append_assoc] at ha
  exact ⟨_, .joins (.andThen a b) ha hb⟩

/-- A sequence rejects what its first parser rejects. -/
theorem Rejects.andThen {text : List Char} (ha : s.Rejects a text) :
    s.Rejects (.andThen a b) text := by
  obtain ⟨x, l, ha⟩ := ha
  exact ⟨_, l, .breaks (.andThen a b) ha⟩

/-- A sequence rejects a text if its second parser rejects what the first has left. -/
theorem Rejects.andThen_late (ha : s.Accepts a m rest) (hb : s.Rejects b rest) :
    s.Rejects (.andThen a b) (m ++ rest) := by
  obtain ⟨l, ha⟩ := ha
  obtain ⟨x, l', hb⟩ := hb
  exact ⟨_, _, .breaksLate (.andThen a b) ha hb⟩

/-- What may be missing is missing where it is rejected. -/
theorem Accepts.missing (h : s.Rejects a rest) : s.Accepts (.orElse a .empty) [] rest :=
  .second h .empty

/-- A parser with an optional continuation. -/
theorem Accepts.thenOptional (ha : s.Accepts a m (n ++ rest))
    (hb : s.Accepts (.orElse b .empty) n rest) : s.Accepts (.thenOptional a b) (m ++ n) rest :=
  .expand rfl (.andThen ha hb)

/-- A parser with an optional lead. -/
theorem Accepts.optionalThen (ha : s.Accepts (.orElse a .empty) m (n ++ rest))
    (hb : s.Accepts b n rest) : s.Accepts (.optionalThen a b) (m ++ n) rest :=
  .expand rfl (.andThen ha hb)

/-- A parser between two others. -/
theorem Accepts.between (hopening : s.Accepts opening o (m ++ (n ++ rest)))
    (hinner : s.Accepts inner m (n ++ rest)) (hclosing : s.Accepts closing n rest) :
    s.Accepts (.between inner opening closing) (o ++ m ++ n) rest :=
  .expand rfl (.andThen (.andThen hopening hinner) hclosing)

/-- A parser that is not objected to. -/
theorem Accepts.guarded {objection : Text → Option Event}
    (hobjection : objection (.ofList (m ++ rest)) = none) (h : s.Accepts body m rest) :
    s.Accepts (.guarded objection body) m rest := by
  obtain ⟨l, h⟩ := h
  exact ⟨l, .admitted hobjection h⟩

/-! ## Loops -/

/-- A loop takes nothing where its body rejects. -/
theorem Accepts.stop (h : s.Rejects body rest) : s.Accepts (.many0 body) [] rest := by
  obtain ⟨x, l, h⟩ := h
  exact ⟨l, .stop h⟩

/-- A loop takes what its body accepts, and then goes on. If nothing is left, it is over, and what
it would have gone on with is nothing. -/
theorem Accepts.more (hb : s.Accepts body m (n ++ rest)) (hm : m ≠ [])
    (hrest : s.Accepts (.many0 body) n rest) : s.Accepts (.many0 body) (m ++ n) rest := by
  obtain ⟨l, hb⟩ := hb
  obtain ⟨l', hrest⟩ := hrest
  rw [← List.append_assoc] at hb
  have hsize : (Text.ofList (n ++ rest)).size ≠ (Text.ofList (m ++ n ++ rest)).size := by
    have hpos := mt utf8Size_eq_zero_iff.1 hm
    simp only [Text.ofList, List.append_assoc, utf8Size_append]
    omega
  by_cases hzero : (Text.ofList (n ++ rest)).size = 0
  · have hnil : n ++ rest = [] := utf8Size_eq_zero_iff.1 hzero
    obtain ⟨rfl, rfl⟩ := List.append_eq_nil_iff.1 hnil
    rw [List.append_nil] at hb ⊢
    exact ⟨l, .last hb (.inl hzero)⟩
  · exact ⟨_, .more hb (not_or.2 ⟨hzero, hsize⟩) hrest⟩

/-- A loop that must go round once. -/
theorem Accepts.many1 (hb : s.Accepts body m (n ++ rest)) (hm : m ≠ [])
    (hrest : s.Accepts (.many0 body) n rest) : s.Accepts (.many1 body) (m ++ n) rest := by
  obtain ⟨l, hloop⟩ := Accepts.more hb hm hrest
  obtain ⟨l', hb⟩ := hb
  rw [← List.append_assoc] at hb
  exact ⟨l, .once hb hloop⟩

/-- A loop that must go round once rejects what its body rejects. -/
theorem Rejects.many1 {text : List Char} (hb : s.Rejects body text) :
    s.Rejects (.many1 body) text := by
  obtain ⟨x, l, hb⟩ := hb
  exact ⟨_, l, .never hb⟩

/-- A loop takes all parts that its body accepts in any place, up to where the body rejects. -/
theorem Accepts.many0_flatten {parts : List (List Char)}
    (hparts : ∀ part ∈ parts, part ≠ [] ∧ ∀ rest, s.Accepts body part rest)
    (hrest : s.Rejects body rest) : s.Accepts (.many0 body) parts.flatten rest := by
  induction parts with
  | nil => exact .stop hrest
  | cons part parts ih =>
    obtain ⟨hne, hpart⟩ := hparts part List.mem_cons_self
    exact .more (hpart _) hne (ih fun y hy => hparts y (List.mem_cons_of_mem _ hy))

/-- A loop takes all characters of a kind, up to where another kind of character stands. -/
theorem Accepts.many0_char {accept : Char → Bool} (hbody : body.direct? = some (Step.char accept))
    (hm : ∀ c ∈ m, accept c = true) (hrest : ∀ c ∈ rest.head?, accept c = false) :
    s.Accepts (.many0 body) m rest := by
  induction m with
  | nil => exact .stop (.of_char hbody hrest)
  | cons c m ih =>
    have hc : s.Accepts body [c] (m ++ rest) := .of_char hbody (hm c List.mem_cons_self)
    exact .more hc (List.cons_ne_nil c []) (ih fun d hd => hm d (List.mem_cons_of_mem c hd))

/-- A loop that must go round once takes all characters of a kind, if there is one of them, up to
where another kind of character stands. -/
theorem Accepts.many1_char {accept : Char → Bool} (hbody : body.direct? = some (Step.char accept))
    (hm : ∀ c ∈ m, accept c = true) (hne : m ≠ []) (hrest : ∀ c ∈ rest.head?, accept c = false) :
    s.Accepts (.many1 body) m rest := by
  obtain ⟨c, m, rfl⟩ := List.exists_cons_of_ne_nil hne
  have hc : s.Accepts body [c] (m ++ rest) := .of_char hbody (hm c List.mem_cons_self)
  have hloop : s.Accepts (.many0 body) m rest :=
    .many0_char hbody (fun d hd => hm d (List.mem_cons_of_mem c hd)) hrest
  exact .many1 hc (List.cons_ne_nil c []) hloop

/-- A count takes as many parts that its body accepts in any place. -/
theorem Accepts.exactly_flatten {parts : List (List Char)}
    (hparts : ∀ part ∈ parts, ∀ rest, s.Accepts body part rest) :
    s.Accepts (.exactly parts.length body) parts.flatten rest := by
  induction parts with
  | nil => exact .expand rfl .empty
  | cons part parts ih =>
    have hpart := hparts part List.mem_cons_self (parts.flatten ++ rest)
    exact .expand rfl (.andThen hpart (ih fun y hy => hparts y (List.mem_cons_of_mem _ hy)))

/-! ## Rules -/

/-- A call accepts what the body of the rule accepts. -/
theorem Accepts.rule {id : RuleId} {rule : Rule} (hp : p.target? = some id)
    (hrule : s.rule? id = some rule) (h : s.Accepts rule.body m rest) : s.Accepts p m rest := by
  obtain ⟨l, h⟩ := h
  exact ⟨_, .rule hp hrule h⟩

/-- A call rejects what the body of the rule rejects. -/
theorem Rejects.rule {id : RuleId} {rule : Rule} {text : List Char} (hp : p.target? = some id)
    (hrule : s.rule? id = some rule) (h : s.Rejects rule.body text) : s.Rejects p text := by
  obtain ⟨x, l, h⟩ := h
  exact ⟨x, _, .rule hp hrule h⟩

end Store

end Descent
