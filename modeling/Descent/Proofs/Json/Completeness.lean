import Descent.Proofs.Json.Tokens

/-!
# The values that the JSON grammar accepts

A derived value, item or list of items is accepted without the blanks at its ends, which the
brackets and separators around it take. The first character of a value decides between the
alternatives of the grammar, since each but one rejects it. So the ordered choice never goes wrong,
and a list of items goes on just as far as the commas do (`framed_of_derives`).
-/

namespace Descent.Json

open Computability Store

/-! ## Rules for arrays and objects -/

namespace Standard.Container

/-- The rule for the opening bracket. -/
def opener : Container → RuleName
  | array => .sopen
  | object => .bopen

/-- The rule for the closing bracket. -/
def closer : Container → RuleName
  | array => .sclose
  | object => .bclose

/-- The rule for one item. -/
def item : Container → RuleName
  | array => .value
  | object => .pair

/-- The rule for all items. -/
def items : Container → RuleName
  | array => .elements
  | object => .members

/-- The rule for items between brackets. -/
def whole : Container → RuleName
  | array => .array
  | object => .object

end Standard.Container

open Standard (Container)

variable {s : Store} {table : Nat} {m rest : List Char}

/-- The body of a rule for all items. -/
theorem body_items (table : Nat) (k : Container) : k.items.body (ref table) =
    .andThen (ref table k.item) (.many0 (.andThen (ref table .comma) (ref table k.item))) := by
  cases k <;> rfl

/-- The body of a rule for items between brackets. -/
theorem body_whole (table : Nat) (k : Container) : k.whole.body (ref table) =
    .between (.orElse (ref table k.items) .empty) (ref table k.opener) (ref table k.closer) := by
  cases k <;> rfl

/-- The body of a rule for an opening bracket. -/
theorem body_opener (table : Nat) (k : Container) :
    k.opener.body (ref table) = .thenOptional (.one k.opening) (ref table .ws) := by
  cases k <;> rfl

/-- The body of a rule for a closing bracket. -/
theorem body_closer (table : Nat) (k : Container) :
    k.closer.body (ref table) = .optionalThen (ref table .ws) (.one k.closing) := by
  cases k <;> rfl

/-- An array or object begins with its bracket. -/
theorem rejects_whole (htable : s.table table = .ready (rules table)) (k : Container)
    {text : List Char} (hc : ∀ c ∈ text.head?, c ≠ k.opening) :
    s.Rejects (ref table k.whole) text := by
  have hopener : s.Rejects (ref table k.opener) text := by
    refine rejects_ref htable _ ?_
    rw [body_opener]
    exact .expand rfl (.andThen (rejects_one hc))
  refine rejects_ref htable _ ?_
  rw [body_whole]
  exact .expand rfl (.andThen (.andThen hopener))

/-! ## The alternatives of a value -/

/-- What does not begin like a string or number is neither. -/
theorem rejects_string_or_number (htable : s.table table = .ready (rules table)) {text : List Char}
    (hc : ∀ c ∈ text.head?, c ≠ '"' ∧ c ≠ '-' ∧ c.isDigit = false) :
    s.Rejects (.orElse (ref table .string) (ref table .number)) text :=
  .orElse (rejects_string htable fun c h => (hc c h).1)
    (rejects_number htable fun c h => (hc c h).2)

/-- What does not begin like a string, number, object or array is none of them. -/
theorem rejects_before_literals (htable : s.table table = .ready (rules table)) {text : List Char}
    (hc : ∀ c ∈ text.head?, c ≠ '"' ∧ c ≠ '-' ∧ c.isDigit = false ∧ c ≠ '\x7b' ∧ c ≠ '[') :
    s.Rejects (.orElse (.orElse (.orElse (ref table .string) (ref table .number))
      (ref table .object)) (ref table .array)) text :=
  .orElse (.orElse
    (rejects_string_or_number htable fun c h => ⟨(hc c h).1, (hc c h).2.1, (hc c h).2.2.1⟩)
    (rejects_whole htable .object fun c h => (hc c h).2.2.2.1))
    (rejects_whole htable .array fun c h => (hc c h).2.2.2.2)

/-- An array or object is accepted as a value. -/
theorem accepts_value_of_whole (htable : s.table table = .ready (rules table)) {k : Container}
    (hm : ∀ c ∈ (m ++ rest).head?, c = k.opening) (h : s.Accepts (ref table k.whole) m rest) :
    s.Accepts (ref table .value) m rest := by
  have hbefore : s.Rejects (.orElse (ref table .string) (ref table .number)) (m ++ rest) := by
    refine rejects_string_or_number htable fun c hc => ?_
    rw [hm c hc]
    cases k <;> decide
  cases k with
  | object =>
    exact accepts_ref htable .value (.first (.first (.first (.first (.second hbefore h)))))
  | array =>
    have hobject : s.Rejects (ref table .object) (m ++ rest) := by
      refine rejects_whole htable .object fun c hc => ?_
      rw [hm c hc]
      decide
    exact accepts_ref htable .value (.first (.first (.first (.second (.orElse hbefore hobject) h))))

/-- What may follow a value: a blank, a comma, or a closing bracket. -/
def ValueEnds (text : List Char) : Prop :=
  ∀ c ∈ text.head?, c ∈ [' ', '\t', '\n', '\r', ',', ']', '\x7d']

/-- What may follow a value may follow a number. -/
theorem ValueEnds.numberEnds (h : ValueEnds rest) : NumberEnds rest := by
  have hall : ∀ c ∈ [' ', '\t', '\n', '\r', ',', ']', '\x7d'],
      c.isDigit = false ∧ c ≠ '.' ∧ c ≠ 'e' ∧ c ≠ 'E' := forall_mem_of_all (by decide)
  exact fun c hc => hall c (h c hc)

/-- A value that contains no others is accepted. -/
theorem accepts_scalar (htable : s.table table = .ready (rules table)) (hm : m ∈ Standard.scalar)
    (hrest : ValueEnds rest) : s.Accepts (ref table .value) m rest := by
  refine accepts_ref htable .value ?_
  rcases hm with (((hfalse | hnull) | htrue) | hnumber) | hstring
  · obtain rfl : m = "false".toList := hfalse
    have hbefore : s.Rejects _ ("false".toList ++ rest) := rejects_before_literals htable (by simp)
    have htrue : s.Rejects (ref table .trueText) ("false".toList ++ rest) :=
      rejects_ref htable .trueText (.literal (by simp) (by simp))
    exact .first (.second (.orElse hbefore htrue) (accepts_ref htable .falseText (.literal _)))
  · obtain rfl : m = "null".toList := hnull
    have hbefore : s.Rejects _ ("null".toList ++ rest) := rejects_before_literals htable (by simp)
    have htrue : s.Rejects (ref table .trueText) ("null".toList ++ rest) :=
      rejects_ref htable .trueText (.literal (by simp) (by simp))
    have hfalse : s.Rejects (ref table .falseText) ("null".toList ++ rest) :=
      rejects_ref htable .falseText (.literal (by simp) (by simp))
    exact .second (.orElse (.orElse hbefore htrue) hfalse)
      (accepts_ref htable .nullText (.literal _))
  · obtain rfl : m = "true".toList := htrue
    have hbefore : s.Rejects _ ("true".toList ++ rest) := rejects_before_literals htable (by simp)
    exact .first (.first (.second hbefore (accepts_ref htable .trueText (.literal _))))
  · have hstring : s.Rejects (ref table .string) (m ++ rest) := by
      refine rejects_string htable fun c hc => ?_
      rcases (begins_number hnumber).head c hc with rfl | hdigit
      · decide
      · exact ne_of_isDigit hdigit rfl
    have hnumber := accepts_number htable hnumber hrest.numberEnds
    exact .first (.first (.first (.first (.first (.second hstring hnumber)))))
  · exact .first (.first (.first (.first (.first (.first (accepts_string htable hstring rest))))))

/-- A value that contains no others does not begin with a blank. -/
theorem begins_scalar (hm : m ∈ Standard.scalar) :
    Begins (· ∉ [' ', '\t', '\n', '\r']) m := by
  rcases hm with (((hfalse | hnull) | htrue) | hnumber) | hstring
  · exact ⟨'f', "alse".toList, hfalse, by decide⟩
  · exact ⟨'n', "ull".toList, hnull, by decide⟩
  · exact ⟨'t', "rue".toList, htrue, by decide⟩
  · refine (begins_number hnumber).imp fun c hc hmem => ?_
    have hall : ∀ d ∈ [' ', '\t', '\n', '\r'], ¬(d = '-' ∨ d.isDigit = true) :=
      forall_mem_of_all (by decide)
    exact hall c hmem hc
  · refine (begins_string hstring).imp fun c hc => ?_
    rw [hc]
    decide

/-! ## Values with blanks around them -/

/-- The characters are blanks around a core that does not begin with a blank. -/
def Framed (core : List Char → Prop) (m : List Char) : Prop :=
  ∃ lead inner trail, lead ∈ Standard.ws ∧ trail ∈ Standard.ws ∧
    Begins (· ∉ [' ', '\t', '\n', '\r']) inner ∧ core inner ∧ m = lead ++ inner ++ trail

/-- Blanks, one closing bracket, and anything after it. -/
def ItemsEnd (text : List Char) : Prop :=
  ∃ blanks c rest, blanks ∈ Standard.ws ∧ (c = ']' ∨ c = '\x7d') ∧ text = blanks ++ c :: rest

/-- The list of items is accepted in two parts: its first item, and the loop over the others. -/
def AcceptsItems (s : Store) (table : Nat) (k : Container) (m rest : List Char) : Prop :=
  ∃ first others, m = first ++ others ∧ s.Accepts (ref table k.item) first (others ++ rest) ∧
    s.Accepts (.many0 (.andThen (ref table .comma) (ref table k.item))) others rest

/-- What the grammar accepts of what is derived. -/
def Accepted (s : Store) (table : Nat) : Standard.Symbol → List Char → Prop
  | .value => Framed fun m => ∀ rest, ValueEnds rest → s.Accepts (ref table .value) m rest
  | .item k => Framed fun m => ∀ rest, ValueEnds rest → s.Accepts (ref table k.item) m rest
  | .items k => Framed fun m => ∀ rest, ItemsEnd rest → AcceptsItems s table k m rest

/-- Blanks can follow a value, and after them whatever can follow a value itself. -/
theorem ValueEnds.append (hm : m ∈ Standard.ws) (h : ValueEnds rest) : ValueEnds (m ++ rest) := by
  cases m with
  | nil => exact h
  | cons c m =>
    have hblank := mem_kstar_single_iff.1 hm c List.mem_cons_self
    exact forall_head_cons (List.mem_append_left [',', ']', '\x7d'] hblank)

/-- What may follow the last item. -/
theorem ItemsEnd.valueEnds (h : ItemsEnd rest) : ValueEnds rest := by
  obtain ⟨blanks, c, tail, hblanks, hc, rfl⟩ := h
  refine .append hblanks (forall_head_cons ?_)
  rcases hc with rfl | rfl
  · decide
  · decide

/-! ## Derivations -/

/-- No item begins with a closing bracket. -/
theorem rejects_items (htable : s.table table = .ready (rules table)) (k : Container) :
    s.Rejects (ref table k.items) (k.closing :: rest) := by
  refine rejects_ref htable _ ?_
  rw [body_items]
  refine .andThen ?_
  cases k with
  | array =>
    have hbefore : s.Rejects _ (']' :: rest) := rejects_before_literals htable (by simp)
    have htrue : s.Rejects (ref table .trueText) (']' :: rest) :=
      rejects_ref htable .trueText (.literal (by simp) (by simp))
    have hfalse : s.Rejects (ref table .falseText) (']' :: rest) :=
      rejects_ref htable .falseText (.literal (by simp) (by simp))
    have hnull : s.Rejects (ref table .nullText) (']' :: rest) :=
      rejects_ref htable .nullText (.literal (by simp) (by simp))
    exact rejects_ref htable .value (.orElse (.orElse (.orElse hbefore htrue) hfalse) hnull)
  | object =>
    have hstring : s.Rejects (ref table .string) ('\x7d' :: rest) :=
      rejects_string htable (by simp)
    exact rejects_ref htable .pair (.andThen (.andThen hstring))

/-- An opening bracket is not a blank. -/
theorem opening_not_mem (k : Container) : k.opening ∉ [' ', '\t', '\n', '\r'] := by
  cases k <;> decide

/-- A closing bracket is not a blank. -/
theorem closing_not_mem (k : Container) : k.closing ∉ [' ', '\t', '\n', '\r'] := by
  cases k <;> decide

/-- Brackets around items, or around nothing, are accepted as a value. -/
theorem accepts_brackets (htable : s.table table = .ready (rules table)) (k : Container)
    {lead items trail : List Char} (hlead : lead ∈ Standard.ws) (htrail : trail ∈ Standard.ws)
    (htight : Tight (items ++ (trail ++ [k.closing] ++ rest)))
    (hitems : s.Accepts (.orElse (ref table k.items) .empty) items
      (trail ++ [k.closing] ++ rest)) :
    s.Accepts (ref table .value) ([k.opening] ++ lead ++ items ++ (trail ++ [k.closing])) rest := by
  have hopener : s.Accepts (ref table k.opener) ([k.opening] ++ lead)
      (items ++ (trail ++ [k.closing] ++ rest)) := by
    refine accepts_ref htable _ ?_
    rw [body_opener]
    exact accepts_opening htable _ hlead htight
  have hcloser : s.Accepts (ref table k.closer) (trail ++ [k.closing]) rest := by
    refine accepts_ref htable _ ?_
    rw [body_closer]
    exact accepts_closing htable (closing_not_mem k) htrail
  refine accepts_value_of_whole htable (k := k) (forall_head_cons rfl) (accepts_ref htable _ ?_)
  rw [body_whole]
  exact .between hopener hitems hcloser

/-- Blanks, an opening bracket, and more blanks. -/
theorem exists_of_structural {c : Char} (hm : m ∈ Standard.structural c) :
    ∃ lead trail, lead ∈ Standard.ws ∧ trail ∈ Standard.ws ∧ m = lead ++ [c] ++ trail := by
  obtain ⟨_, ⟨lead, hlead, _, rfl, rfl⟩, trail, htrail, rfl⟩ := hm
  exact ⟨lead, trail, hlead, htrail, rfl⟩

/-- A bracket with nothing but blanks up to the closing one. -/
theorem framed_empty (htable : s.table table = .ready (rules table)) {k : Container}
    {o c : List Char} (ho : o ∈ Standard.structural k.opening)
    (hc : c ∈ Standard.structural k.closing) : Accepted s table .value (o ++ c) := by
  obtain ⟨lead, blanks, hlead, hblanks, rfl⟩ := exists_of_structural ho
  obtain ⟨blanks', trail, hblanks', htrail, rfl⟩ := exists_of_structural hc
  refine ⟨lead, [k.opening] ++ (blanks ++ blanks') ++ [] ++ ([] ++ [k.closing]), trail, hlead,
    htrail, ⟨k.opening, _, rfl, opening_not_mem k⟩, fun rest _ => ?_, by simp⟩
  have htight : Tight (k.closing :: rest) := forall_head_cons (closing_not_mem k)
  exact accepts_brackets htable k (append_mem_ws hblanks hblanks') (Language.nil_mem_kstar _)
    htight (.missing (rejects_items htable k))

/-- Brackets around items. The blanks at the ends of the items are taken with the brackets. -/
theorem framed_full (htable : s.table table = .ready (rules table)) {k : Container}
    {o items c : List Char} (ho : o ∈ Standard.structural k.opening)
    (hitems : Accepted s table (.items k) items) (hc : c ∈ Standard.structural k.closing) :
    Accepted s table .value (o ++ items ++ c) := by
  obtain ⟨lead, blanks, hlead, hblanks, rfl⟩ := exists_of_structural ho
  obtain ⟨before, core, after, hbefore, hafter, hbegins, haccepts, rfl⟩ := hitems
  obtain ⟨blanks', trail, hblanks', htrail, rfl⟩ := exists_of_structural hc
  have hend := append_mem_ws hafter hblanks'
  refine ⟨lead, [k.opening] ++ (blanks ++ before) ++ core ++ (after ++ blanks' ++ [k.closing]),
    trail, hlead, htrail, ⟨k.opening, _, rfl, opening_not_mem k⟩, fun rest _ => ?_, by simp⟩
  have hitemsEnd : ItemsEnd (after ++ blanks' ++ [k.closing] ++ rest) := by
    refine ⟨after ++ blanks', k.closing, rest, hend, ?_, by simp⟩
    cases k <;> decide
  obtain ⟨first, others, rfl, hfirst, hothers⟩ := haccepts _ hitemsEnd
  have hlist : s.Accepts (ref table k.items) (first ++ others)
      (after ++ blanks' ++ [k.closing] ++ rest) := by
    refine accepts_ref htable _ ?_
    rw [body_items]
    exact .andThen hfirst hothers
  exact accepts_brackets htable k (append_mem_ws hblanks hbefore) hend
    (hbegins.tight fun _ hc => hc) (.first hlist)

/-- A name, a colon and a value. -/
theorem framed_member (htable : s.table table = .ready (rules table)) {name colon value : List Char}
    (hname : name ∈ Standard.string) (hcolon : colon ∈ Standard.structural ':')
    (hvalue : Accepted s table .value value) :
    Accepted s table (.item .object) (name ++ colon ++ value) := by
  obtain ⟨blanks, blanks', hblanks, hblanks', rfl⟩ := exists_of_structural hcolon
  obtain ⟨before, core, after, hbefore, hafter, hbegins, haccepts, rfl⟩ := hvalue
  have hquote : Begins (· ∉ [' ', '\t', '\n', '\r']) name :=
    (begins_string hname).imp fun c hc => by
      rw [hc]
      decide
  refine ⟨[], name ++ (blanks ++ [':'] ++ (blanks' ++ before)) ++ core, after,
    Language.nil_mem_kstar _, hafter, hquote.append.append, fun rest hrest => ?_, by simp⟩
  have hseparator : s.Accepts (ref table .colon) (blanks ++ [':'] ++ (blanks' ++ before))
      (core ++ rest) :=
    accepts_ref htable .colon (accepts_separator htable (by decide) hblanks
      (append_mem_ws hblanks' hbefore) (hbegins.tight fun _ hc => hc))
  exact accepts_ref htable .pair
    (.andThen (.andThen (accepts_string htable hname _) hseparator) (haccepts rest hrest))

/-- A single item ends a list, because no comma follows it. -/
theorem framed_last (htable : s.table table = .ready (rules table)) {k : Container}
    {item : List Char} (hitem : Accepted s table (.item k) item) :
    Accepted s table (.items k) item := by
  obtain ⟨before, core, after, hbefore, hafter, hbegins, haccepts, rfl⟩ := hitem
  refine ⟨before, core, after, hbefore, hafter, hbegins, fun rest hrest => ?_, rfl⟩
  refine ⟨core, [], (List.append_nil core).symm, haccepts rest hrest.valueEnds, .stop (.andThen ?_)⟩
  obtain ⟨blanks, c, tail, hblanks, hc, rfl⟩ := hrest
  refine rejects_comma htable hblanks (forall_head_cons ?_) (forall_head_cons ?_)
  · rcases hc with rfl | rfl <;> decide
  · rcases hc with rfl | rfl <;> decide

/-- A comma goes on to the rest of a list. -/
theorem framed_more (htable : s.table table = .ready (rules table)) {k : Container}
    {item comma items : List Char} (hitem : Accepted s table (.item k) item)
    (hcomma : comma ∈ Standard.structural ',') (hitems : Accepted s table (.items k) items) :
    Accepted s table (.items k) (item ++ comma ++ items) := by
  obtain ⟨lead, first, blanks, hlead, hblanks, hbegins, hfirst, rfl⟩ := hitem
  obtain ⟨before, after, hbefore, hafter, rfl⟩ := exists_of_structural hcomma
  obtain ⟨blanks', core, trail, hblanks', htrail, hbegins', hcore, rfl⟩ := hitems
  refine ⟨lead, first ++ (blanks ++ before ++ [','] ++ (after ++ blanks')) ++ core, trail, hlead,
    htrail, hbegins.append.append, fun rest hrest => ?_, by simp⟩
  obtain ⟨next, others, rfl, hnext, hothers⟩ := hcore rest hrest
  have hends : ValueEnds (blanks ++ before ++ [','] ++ (after ++ blanks') ++ (next ++ others) ++
      rest) := by
    have happend : blanks ++ before ++ [','] ++ (after ++ blanks') ++ (next ++ others) ++ rest =
        blanks ++ before ++ (',' :: (after ++ blanks' ++ (next ++ others) ++ rest)) := by simp
    rw [happend]
    exact .append (append_mem_ws hblanks hbefore) (forall_head_cons (by decide))
  have hseparator : s.Accepts (ref table .comma) (blanks ++ before ++ [','] ++ (after ++ blanks'))
      (next ++ (others ++ rest)) := by
    refine accepts_ref htable .comma (accepts_separator htable (by decide)
      (append_mem_ws hblanks hbefore) (append_mem_ws hafter hblanks') ?_)
    rw [← List.append_assoc]
    exact hbegins'.tight fun _ hc => hc
  have hloop := Accepts.more (.andThen hseparator hnext) (by simp) hothers
  refine ⟨first, _, ?_, ?_, hloop⟩
  · simp
  · simpa using hfirst _ hends

/-- What the standard derives, the grammar accepts. -/
theorem accepted_of_derives (htable : s.table table = .ready (rules table))
    {symbol : Standard.Symbol} {d : Nat} (h : Standard.Derives symbol d m) :
    Accepted s table symbol m := by
  induction h with
  | @scalar m hm =>
    have hnil : [] ∈ Standard.ws := Language.nil_mem_kstar _
    exact ⟨[], m, [], hnil, hnil, begins_scalar hm,
      fun rest hrest => accepts_scalar htable hm hrest, by simp⟩
  | empty k ho hc => exact framed_empty htable ho hc
  | full k ho _ hc ih => exact framed_full htable ho ih hc
  | element _ ih => exact ih
  | member hn hc _ ih => exact framed_member htable hn hc ih
  | last _ ih => exact framed_last htable ih
  | more _ hc _ ihm ihn => exact framed_more htable ihm hc ihn

end Descent.Json
