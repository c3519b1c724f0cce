import Descent.Proofs.Acceptance
import Descent.Proofs.Json.Rules
import Descent.Proofs.Json.Standard

/-!
# The words that the JSON grammar accepts

Brackets, separators, strings and numbers are accepted as the standard writes them, blanks included,
wherever they can be followed by what follows. Loops take all they can get, so blanks must not be
followed by blanks, nor a number by what could continue it. A string may be followed by anything.
-/

namespace Descent.Json

open Computability Store

variable {s : Store} {table : Nat} {m rest : List Char}

/-- A rule accepts what its body accepts. -/
theorem accepts_ref (htable : s.table table = .ready (rules table)) (n : RuleName)
    (h : s.Accepts (n.body (ref table)) m rest) : s.Accepts (ref table n) m rest :=
  .rule rfl (rule?_slot htable n) h

/-- A rule rejects what its body rejects. -/
theorem rejects_ref (htable : s.table table = .ready (rules table)) (n : RuleName)
    {text : List Char} (h : s.Rejects (n.body (ref table)) text) : s.Rejects (ref table n) text :=
  .rule rfl (rule?_slot htable n) h

/-- The text starts with a character of a kind. -/
def Begins (kind : Char → Prop) (text : List Char) : Prop := ∃ c tail, text = c :: tail ∧ kind c

/-- Whatever follows, the first character is of the kind. -/
theorem Begins.head {kind : Char → Prop} (h : Begins kind m) :
    ∀ c ∈ (m ++ rest).head?, kind c := by
  obtain ⟨d, tail, rfl, hd⟩ := h
  exact forall_head_cons hd

/-- A wider kind of characters. -/
theorem Begins.imp {kind kind' : Char → Prop} (h : Begins kind m) (himp : ∀ c, kind c → kind' c) :
    Begins kind' m := by
  obtain ⟨c, tail, htext, hc⟩ := h
  exact ⟨c, tail, htext, himp c hc⟩

/-- More text does not change how a text begins. -/
theorem Begins.append {kind : Char → Prop} (h : Begins kind m) : Begins kind (m ++ rest) := by
  obtain ⟨c, tail, rfl, hc⟩ := h
  exact ⟨c, tail ++ rest, rfl, hc⟩

/-! ## Blanks, brackets and separators -/

/-- The text does not start with a blank. -/
def Tight (text : List Char) : Prop := ∀ c ∈ text.head?, c ∉ [' ', '\t', '\n', '\r']

/-- A text that begins with something else. -/
theorem Begins.tight {kind : Char → Prop} (h : Begins kind m)
    (hkind : ∀ c, kind c → c ∉ [' ', '\t', '\n', '\r']) : Tight (m ++ rest) :=
  fun c hc => hkind c (h.head c hc)

/-- Blanks after blanks. -/
theorem append_mem_ws {n : List Char} (hm : m ∈ Standard.ws) (hn : n ∈ Standard.ws) :
    m ++ n ∈ Standard.ws := by
  rw [Standard.ws, ← kstar_mul_kstar]
  exact Language.append_mem_mul hm hn

/-- All blanks are taken, if there are any. -/
theorem accepts_blanks (htable : s.table table = .ready (rules table)) (hm : m ∈ Standard.ws)
    (hrest : Tight rest) : s.Accepts (.orElse (ref table .ws) .empty) m rest := by
  have hblank := mem_kstar_single_iff.1 hm
  have hend : ∀ c ∈ rest.head?, [' ', '\t', '\n', '\r'].contains c = false :=
    fun c hc => by simpa using hrest c hc
  by_cases hne : m = []
  · subst hne
    exact .missing (rejects_ref htable .ws (.many1 (.of_char rfl hend)))
  · have hall : ∀ c ∈ m, [' ', '\t', '\n', '\r'].contains c = true :=
      fun c hc => by simpa using hblank c hc
    exact .first (accepts_ref htable .ws (.many1_char rfl hall hne hend))

/-- A given character is accepted. -/
theorem accepts_one (c : Char) : s.Accepts (.one c) [c] rest :=
  .of_char rfl (by simp)

/-- A text that starts with another character is rejected. -/
theorem rejects_one {c : Char} {text : List Char} (hc : ∀ d ∈ text.head?, d ≠ c) :
    s.Rejects (.one c) text :=
  .of_char rfl fun d hd => by simpa using hc d hd

/-- A bracket opens with the blanks after it. -/
theorem accepts_opening (htable : s.table table = .ready (rules table)) (c : Char)
    (hm : m ∈ Standard.ws) (hrest : Tight rest) :
    s.Accepts (.thenOptional (.one c) (ref table .ws)) ([c] ++ m) rest :=
  .thenOptional (accepts_one c) (accepts_blanks htable hm hrest)

/-- A bracket closes with the blanks before it. -/
theorem accepts_closing (htable : s.table table = .ready (rules table)) {c : Char}
    (hc : c ∉ [' ', '\t', '\n', '\r']) (hm : m ∈ Standard.ws) :
    s.Accepts (.optionalThen (ref table .ws) (.one c)) (m ++ [c]) rest := by
  have htight : Tight ([c] ++ rest) := forall_head_cons hc
  exact .optionalThen (accepts_blanks htable hm htight) (accepts_one c)

/-- A separator takes the blanks around it. -/
theorem accepts_separator (htable : s.table table = .ready (rules table)) {c : Char}
    {lead trail : List Char} (hc : c ∉ [' ', '\t', '\n', '\r']) (hlead : lead ∈ Standard.ws)
    (htrail : trail ∈ Standard.ws) (hrest : Tight rest) :
    s.Accepts (.thenOptional (.optionalThen (ref table .ws) (.one c)) (ref table .ws))
      (lead ++ [c] ++ trail) rest :=
  .thenOptional (accepts_closing htable hc hlead) (accepts_blanks htable htrail hrest)

/-- A comma is not found where something else follows the blanks. -/
theorem rejects_comma (htable : s.table table = .ready (rules table)) (hm : m ∈ Standard.ws)
    (hrest : Tight rest) (hcomma : ∀ c ∈ rest.head?, c ≠ ',') :
    s.Rejects (ref table .comma) (m ++ rest) := by
  have hlead : s.Rejects (.optionalThen (ref table .ws) (.one ',')) (m ++ rest) :=
    .expand rfl (.andThen_late (accepts_blanks htable hm hrest) (rejects_one hcomma))
  exact rejects_ref htable .comma (.expand rfl (.andThen hlead))

/-! ## Strings -/

/-- The standard's hexadecimal digits are among those of the grammar. -/
theorem mem_hexDigits {c : Char}
    (hc : '0' ≤ c ∧ c ≤ '9' ∨ 'a' ≤ c ∧ c ≤ 'f' ∨ 'A' ≤ c ∧ c ≤ 'F') : c ∈ hexDigits := by
  have hall : ∀ n < 0x80, ('0' ≤ Char.ofNat n ∧ Char.ofNat n ≤ '9' ∨
      'a' ≤ Char.ofNat n ∧ Char.ofNat n ≤ 'f' ∨ 'A' ≤ Char.ofNat n ∧ Char.ofNat n ≤ 'F') →
      Char.ofNat n ∈ hexDigits := by decide
  have hlt : c.toNat < 0x80 := by
    rcases hc with ⟨_, hle⟩ | ⟨_, hle⟩ | ⟨_, hle⟩
    · exact Nat.lt_of_le_of_lt hle (by decide)
    · exact Nat.lt_of_le_of_lt hle (by decide)
    · exact Nat.lt_of_le_of_lt hle (by decide)
  have hmem := hall c.toNat hlt
  rw [Char.ofNat_toNat] at hmem
  exact hmem hc

/-- What stands for itself is not among the characters that must be escaped. -/
theorem not_mem_unescapable {c : Char} (hc : '\x20' ≤ c ∧ c ≠ '"' ∧ c ≠ '\\') :
    c ∉ unescapable := by
  have hcontrol : ∀ n < 0x20, Char.ofNat n < '\x20' := by decide
  simp only [unescapable, List.mem_append, List.mem_cons, List.not_mem_nil, or_false,
    List.mem_map, List.mem_range, not_or, not_exists, not_and]
  refine ⟨⟨hc.2.1, hc.2.2⟩, fun n hn heq => ?_⟩
  have hlt := hcontrol n hn
  rw [heq] at hlt
  exact Char.not_le.2 hlt hc.1

/-- An escape is accepted, because the backslash does not stand for itself and `u` is not one of the
single characters that can follow it. -/
theorem accepts_escape (htable : s.table table = .ready (rules table)) (hm : m ∈ Standard.escape)
    (rest : List Char) : s.Accepts (ref table .escaped) m rest := by
  refine accepts_ref htable .escaped ?_
  obtain ⟨_, rfl, tail, htail, rfl⟩ := hm
  refine .andThen (accepts_one '\\') ?_
  rcases htail with ⟨c, hc, rfl⟩ | ⟨_, rfl, digits, hdigits, rfl⟩
  · exact .first (.of_char rfl (by simpa [escapes] using hc))
  · refine .second (.of_char rfl (forall_head_cons (by decide)))
      (accepts_ref htable .unicode (.andThen (accepts_one 'u') ?_))
    obtain ⟨parts, rfl, hlength, hparts⟩ := Language.mem_pow.1 hdigits
    rw [← hlength]
    refine .exactly_flatten fun part hpart rest => ?_
    obtain ⟨c, hc, rfl⟩ := hparts part hpart
    exact accepts_ref htable .hexdigit (.of_char rfl (by simpa using mem_hexDigits hc))

/-- Between quotes any character that stands for itself, and any escape, is accepted. -/
theorem accepts_stringChar (htable : s.table table = .ready (rules table))
    (hm : m ∈ Standard.unescaped + Standard.escape) (rest : List Char) :
    s.Accepts (ref table .stringChar) m rest := by
  refine accepts_ref htable .stringChar ?_
  rcases hm with ⟨c, hc, rfl⟩ | hescape
  · have hplain : (!unescapable.contains c) = true := by simpa using not_mem_unescapable hc
    exact .first (accepts_ref htable .unescaped (.of_char rfl hplain))
  · refine .second (rejects_ref htable .unescaped (.of_char rfl ?_))
      (accepts_escape htable hescape rest)
    obtain ⟨_, rfl, tail, _, rfl⟩ := hescape
    exact forall_head_cons (by decide)

/-- A string is accepted, whatever follows it. -/
theorem accepts_string (htable : s.table table = .ready (rules table)) (hm : m ∈ Standard.string)
    (rest : List Char) : s.Accepts (ref table .string) m rest := by
  obtain ⟨_, ⟨_, rfl, chars, hchars, rfl⟩, _, rfl, rfl⟩ := hm
  obtain ⟨parts, rfl, hparts⟩ := Language.mem_kstar.1 hchars
  have hquote (rest : List Char) : s.Accepts (ref table .quote) ['"'] rest :=
    accepts_ref htable .quote (accepts_one '"')
  have hend : s.Rejects (ref table .stringChar) ('"' :: rest) := by
    refine rejects_ref htable .stringChar (.orElse ?_ ?_)
    · exact rejects_ref htable .unescaped (.of_char rfl (forall_head_cons (by decide)))
    · exact rejects_ref htable .escaped (.andThen (rejects_one (forall_head_cons (by decide))))
  have hbody : ∀ part ∈ parts, part ≠ [] ∧ ∀ rest, s.Accepts (ref table .stringChar) part rest := by
    intro part hpart
    refine ⟨?_, accepts_stringChar htable (hparts part hpart)⟩
    rintro rfl
    rcases hparts [] hpart with ⟨c, _, hnil⟩ | ⟨_, rfl, tail, _, hnil⟩
    · cases hnil
    · cases hnil
  exact accepts_ref htable .string (.between (hquote _) (.many0_flatten hbody hend) (hquote rest))

/-- A string begins with a quote. -/
theorem begins_string (hm : m ∈ Standard.string) : Begins (· = '"') m := by
  obtain ⟨_, ⟨_, rfl, chars, _, rfl⟩, _, rfl, rfl⟩ := hm
  exact ⟨'"', chars ++ ['"'], rfl, rfl⟩

/-- What begins otherwise is no string. -/
theorem rejects_string (htable : s.table table = .ready (rules table)) {text : List Char}
    (hc : ∀ c ∈ text.head?, c ≠ '"') : s.Rejects (ref table .string) text := by
  have hquote := rejects_ref htable .quote (rejects_one hc)
  exact rejects_ref htable .string (.expand rfl (.andThen (.andThen hquote)))

/-! ## Numbers -/

/-- The text does not start with a digit. -/
def NoDigit (text : List Char) : Prop := ∀ c ∈ text.head?, c.isDigit = false

/-- The standard's digits are those of the grammar. -/
theorem isDigit_of_mem {c : Char} (hc : '0' ≤ c ∧ c ≤ '9') : c.isDigit = true := by
  simp only [Char.isDigit, Bool.and_eq_true, decide_eq_true_eq]
  exact hc

/-- Digits begin with a digit. -/
theorem begins_digits (hm : m ∈ Standard.digit * Standard.digit∗) :
    Begins (·.isDigit = true) m := by
  obtain ⟨_, ⟨c, hc, rfl⟩, tail, _, rfl⟩ := hm
  exact ⟨c, tail, rfl, isDigit_of_mem hc⟩

/-- A digit is no other character. -/
theorem ne_of_isDigit {c d : Char} (hc : c.isDigit = true) (hd : d.isDigit = false) : c ≠ d := by
  rintro rfl
  rw [hc] at hd
  cases hd

/-- All digits are taken. -/
theorem accepts_digits (htable : s.table table = .ready (rules table))
    (hm : m ∈ Standard.digit * Standard.digit∗) (hrest : NoDigit rest) :
    s.Accepts (ref table .digits) m rest := by
  obtain ⟨_, ⟨c, hc, rfl⟩, tail, htail, rfl⟩ := hm
  have htail := mem_kstar_single_iff.1 htail
  have hall : ∀ d ∈ c :: tail, d.isDigit = true := by
    intro d hd
    rcases List.mem_cons.1 hd with rfl | hd
    · exact isDigit_of_mem hc
    · exact isDigit_of_mem (htail d hd)
  exact accepts_ref htable .digits (.many1_char rfl hall (List.cons_ne_nil c tail) hrest)

/-- A digit other than zero and digits are digits. -/
theorem nonzero_mul_le : Standard.nonzero * Standard.digit∗ ≤ Standard.digit * Standard.digit∗ := by
  rintro _ ⟨_, ⟨c, hc, rfl⟩, tail, htail, rfl⟩
  have hle : '0' ≤ c := Char.le_trans (show '0' ≤ '1' by decide) hc.1
  exact Language.append_mem_mul ⟨c, ⟨hle, hc.2⟩, rfl⟩ htail

/-- A whole number begins with a digit. -/
theorem begins_int (hm : m ∈ Standard.int) : Begins (·.isDigit = true) m := by
  rcases hm with hzero | hdigits
  · exact ⟨'0', [], hzero, rfl⟩
  · exact begins_digits (nonzero_mul_le hdigits)

/-- The digits of a whole number are accepted. If it is zero, nothing else is tried. -/
theorem accepts_integer (htable : s.table table = .ready (rules table)) (hm : m ∈ Standard.int)
    (hrest : NoDigit rest) : s.Accepts (ref table .integer) m rest := by
  refine accepts_ref htable .integer ?_
  rcases hm with hzero | hdigits
  · obtain rfl : m = ['0'] := hzero
    exact .first (accepts_one '0')
  · refine .second (rejects_one ?_) (accepts_digits htable (nonzero_mul_le hdigits) hrest)
    obtain ⟨_, ⟨c, hc, rfl⟩, tail, _, rfl⟩ := hdigits
    refine forall_head_cons ?_
    rintro rfl
    exact absurd hc.1 (by decide)

/-- What cannot follow a number: it could be part of it. -/
def NumberEnds (text : List Char) : Prop :=
  ∀ c ∈ text.head?, c.isDigit = false ∧ c ≠ '.' ∧ c ≠ 'e' ∧ c ≠ 'E'

/-- A fraction is accepted, or found missing. -/
theorem accepts_fraction (htable : s.table table = .ready (rules table))
    (hm : m ∈ Standard.frac + 1) (hdigit : NoDigit rest) (hpoint : ∀ c ∈ rest.head?, c ≠ '.') :
    s.Accepts (.orElse (ref table .fraction) .empty) m rest := by
  rcases hm with ⟨_, rfl, digits, hdigits, rfl⟩ | hempty
  · exact .first (accepts_ref htable .fraction
      (.andThen (accepts_one '.') (accepts_digits htable hdigits hdigit)))
  · obtain rfl : m = [] := hempty
    exact .missing (rejects_ref htable .fraction (.andThen (rejects_one hpoint)))

/-- An exponent is accepted, or found missing. -/
theorem accepts_exponent (htable : s.table table = .ready (rules table))
    (hm : m ∈ Standard.exp + 1) (hrest : NumberEnds rest) :
    s.Accepts (.orElse (ref table .exponent) .empty) m rest := by
  rcases hm with ⟨_, ⟨_, ⟨e, he, rfl⟩, sign, hsign, rfl⟩, digits, hdigits, rfl⟩ | hempty
  · have hletter : s.Accepts (.anyChar ['e', 'E']) [e] (sign ++ digits ++ rest) :=
      .of_char rfl (by simpa using he)
    have hdigit := accepts_digits htable hdigits fun c hc => (hrest c hc).1
    have hsigned : s.Accepts (.optionalThen (.anyChar ['+', '-']) (ref table .digits))
        (sign ++ digits) rest := by
      refine .optionalThen ?_ hdigit
      rcases hsign with ⟨c, hc, rfl⟩ | hempty
      · exact .first (.of_char rfl (by simpa using hc))
      · obtain rfl : sign = [] := hempty
        refine .missing (.of_char rfl fun c hc => ?_)
        have hc := (begins_digits hdigits).head c hc
        have hplus : c ≠ '+' := ne_of_isDigit hc rfl
        have hminus : c ≠ '-' := ne_of_isDigit hc rfl
        simp [hplus, hminus]
    have h := accepts_ref htable .exponent (Accepts.andThen hletter hsigned)
    rw [← List.append_assoc] at h
    exact .first h
  · obtain rfl : m = [] := hempty
    refine .missing (rejects_ref htable .exponent (.andThen (.of_char rfl fun c hc => ?_)))
    obtain ⟨_, _, hlower, hupper⟩ := hrest c hc
    simp [hlower, hupper]

/-- What stands from the exponent on begins neither with a digit nor with a point. -/
theorem head_exponent (hm : m ∈ Standard.exp + 1) (hrest : NumberEnds rest) :
    ∀ c ∈ (m ++ rest).head?, c.isDigit = false ∧ c ≠ '.' := by
  rcases hm with ⟨_, ⟨_, ⟨e, he, rfl⟩, sign, _, rfl⟩, digits, _, rfl⟩ | hempty
  · have hall : ∀ d ∈ ['e', 'E'], d.isDigit = false ∧ d ≠ '.' :=
      forall_mem_of_all (by decide)
    exact forall_head_cons (hall e he)
  · obtain rfl : m = [] := hempty
    intro c hc
    obtain ⟨hdigit, hpoint, _, _⟩ := hrest c hc
    exact ⟨hdigit, hpoint⟩

/-- No digit follows before the fraction. -/
theorem noDigit_fraction (hm : m ∈ Standard.frac + 1) (hrest : NoDigit rest) :
    NoDigit (m ++ rest) := by
  rcases hm with ⟨_, rfl, digits, _, rfl⟩ | hempty
  · exact forall_head_cons rfl
  · obtain rfl : m = [] := hempty
    exact hrest

/-- A number is accepted where it ends. -/
theorem accepts_number (htable : s.table table = .ready (rules table)) (hm : m ∈ Standard.number)
    (hrest : NumberEnds rest) : s.Accepts (ref table .number) m rest := by
  obtain ⟨_, ⟨_, ⟨sign, hsign, int, hint, rfl⟩, frac, hfrac, rfl⟩, exp, hexp, rfl⟩ := hm
  have hnoDigit : NoDigit (exp ++ rest) := fun c hc => (head_exponent hexp hrest c hc).1
  have hinteger : s.Accepts (ref table .integer) int (frac ++ (exp ++ rest)) :=
    accepts_integer htable hint (noDigit_fraction hfrac hnoDigit)
  have hfraction := accepts_fraction htable hfrac hnoDigit
    fun c hc => (head_exponent hexp hrest c hc).2
  have hexponent := accepts_exponent htable hexp hrest
  have hsigned : s.Accepts (.orElse (.one '-') .empty) sign (int ++ frac ++ exp ++ rest) := by
    rcases hsign with hminus | hempty
    · obtain rfl : sign = ['-'] := hminus
      exact .first (accepts_one '-')
    · obtain rfl : sign = [] := hempty
      simp only [List.append_assoc]
      exact .missing (rejects_one fun c hc => ne_of_isDigit ((begins_int hint).head c hc) rfl)
  have h := accepts_ref htable .number
    (.optionalThen hsigned (.thenOptional (.thenOptional hinteger hfraction) hexponent))
  rw [← List.append_assoc, ← List.append_assoc] at h
  exact h

/-- A number begins with a sign or a digit. -/
theorem begins_number (hm : m ∈ Standard.number) :
    Begins (fun c => c = '-' ∨ c.isDigit = true) m := by
  obtain ⟨_, ⟨_, ⟨sign, hsign, int, hint, rfl⟩, frac, _, rfl⟩, exp, _, rfl⟩ := hm
  refine .append (.append ?_)
  rcases hsign with hminus | hempty
  · obtain rfl : sign = ['-'] := hminus
    exact ⟨'-', int, rfl, .inl rfl⟩
  · obtain rfl : sign = [] := hempty
    exact (begins_int hint).imp fun _ => .inr

/-- What begins otherwise is no number. -/
theorem rejects_number (htable : s.table table = .ready (rules table)) {text : List Char}
    (hc : ∀ c ∈ text.head?, c ≠ '-' ∧ c.isDigit = false) :
    s.Rejects (ref table .number) text := by
  have hdigits : s.Rejects (ref table .digits) text :=
    rejects_ref htable .digits (.many1 (.of_char rfl fun c h => (hc c h).2))
  have hzero : s.Rejects (.one '0') text :=
    rejects_one fun c h => (ne_of_isDigit rfl (hc c h).2).symm
  have hinteger := rejects_ref htable .integer (.orElse hzero hdigits)
  have hminus : s.Accepts (.orElse (.one '-') .empty) [] text :=
    .missing (rejects_one fun c h => (hc c h).1)
  have hrest : s.Rejects (.thenOptional (.thenOptional (ref table .integer) (ref table .fraction))
      (ref table .exponent)) text :=
    .expand rfl (.andThen (.expand rfl (.andThen hinteger)))
  exact rejects_ref htable .number (.expand rfl (.andThen_late hminus hrest))

end Descent.Json
