import Descent.Grammar.Json
import Descent.Proofs.Json.Standard

/-!
# The scan for nesting is right

A scan of a document counts open brackets outside strings, without parsing anything. On every JSON
text it finds how deep arrays and objects really nest (`nestingDepth_of_text`): blanks, separators,
numbers and literals leave what is known as it was, a string comes back to where it started, and a
value inside `k` brackets only raises the greatest depth.
-/

namespace Descent.Json

open Standard Computability

namespace Nesting

/-! ## Words that change nothing -/

/-- The words that leave what is known as it was. -/
def stays (n : Nesting) : Language Char := {m | m.foldl advance n = n}

section

variable {n : Nesting} {a b : Language Char}

/-- Two words that change nothing change nothing together. -/
theorem mul_le_stays (ha : a ≤ n.stays) (hb : b ≤ n.stays) : a * b ≤ n.stays := by
  rintro _ ⟨x, hx, y, hy, rfl⟩
  have hx : x.foldl advance n = n := ha hx
  have hy : y.foldl advance n = n := hb hy
  calc (x ++ y).foldl advance n = y.foldl advance (x.foldl advance n) := List.foldl_append
    _ = n := by rw [hx, hy]

/-- The empty word changes nothing. -/
theorem one_le_stays : 1 ≤ n.stays := by
  rintro m rfl
  rfl

/-- Any number of words that change nothing change nothing. -/
theorem kstar_le_stays (ha : a ≤ n.stays) : a∗ ≤ n.stays :=
  kstar_le_of_mul_le_left one_le_stays (mul_le_stays (le_refl _) ha)

/-- A given number of words that change nothing change nothing. -/
theorem pow_le_stays (ha : a ≤ n.stays) (count : Nat) : a ^ count ≤ n.stays := by
  induction count with
  | zero => exact one_le_stays
  | succ count ih =>
    rw [pow_succ]
    exact mul_le_stays ih ha

/-- A kind of characters changes nothing if none of them does. -/
theorem single_le_stays {kind : Char → Prop} (h : ∀ c, kind c → n.advance c = n) :
    single kind ≤ n.stays := by
  rintro _ ⟨c, hc, rfl⟩
  exact h c hc

/-- A given character that changes nothing. -/
theorem char_le_stays {c : Char} (h : n.advance c = n) : {[c]} ≤ n.stays := by
  rintro m rfl
  exact h

end

variable {k deepest : Nat}

/-- Outside strings only quotes and brackets change anything. -/
theorem single_le_outside {kind : Char → Prop}
    (h : ∀ c ∈ ['"', '[', '\x7b', ']', '\x7d'], ¬ kind c) :
    single kind ≤ stays ⟨k, deepest, false, false⟩ := by
  refine single_le_stays fun c hc => ?_
  have hplain : c ∉ ['"', '[', '\x7b', ']', '\x7d'] := fun hmem => h c hmem hc
  simp only [List.mem_cons, List.not_mem_nil, or_false, not_or] at hplain
  obtain ⟨hquote, hopen, hbrace, hclose, hbrace'⟩ := hplain
  simp [advance, hquote, hopen, hbrace, hclose, hbrace']

/-- Inside a string only quotes and backslashes change anything. -/
theorem single_le_inside {kind : Char → Prop} (h : ∀ c ∈ ['"', '\\'], ¬ kind c) :
    single kind ≤ stays ⟨k, deepest, true, false⟩ := by
  refine single_le_stays fun c hc => ?_
  have hquote : c ≠ '"' := fun heq => h c (by simp [heq]) hc
  have hback : c ≠ '\\' := fun heq => h c (by simp [heq]) hc
  simp [advance, hquote, hback]

/-- Blanks change nothing. -/
theorem ws_le_stays : ws ≤ stays ⟨k, deepest, false, false⟩ :=
  kstar_le_stays (single_le_outside (forall_mem_of_all (by decide)))

/-- A separator changes nothing. -/
theorem structural_le_stays {c : Char}
    (hc : advance ⟨k, deepest, false, false⟩ c = ⟨k, deepest, false, false⟩) :
    structural c ≤ stays ⟨k, deepest, false, false⟩ :=
  mul_le_stays (mul_le_stays ws_le_stays (char_le_stays hc)) ws_le_stays

/-- A number changes nothing. -/
theorem number_le_stays : number ≤ stays ⟨k, deepest, false, false⟩ := by
  have hdigit : digit ≤ stays ⟨k, deepest, false, false⟩ :=
    single_le_outside (forall_mem_of_all (by decide))
  have hdigits := mul_le_stays hdigit (kstar_le_stays hdigit)
  have hnonzero : nonzero ≤ stays ⟨k, deepest, false, false⟩ :=
    single_le_outside (forall_mem_of_all (by decide))
  have hint : int ≤ stays ⟨k, deepest, false, false⟩ :=
    add_le (char_le_stays rfl) (mul_le_stays hnonzero (kstar_le_stays hdigit))
  have hfrac : frac ≤ stays ⟨k, deepest, false, false⟩ := mul_le_stays (char_le_stays rfl) hdigits
  have hexp : exp ≤ stays ⟨k, deepest, false, false⟩ :=
    mul_le_stays (mul_le_stays (single_le_outside (forall_mem_of_all (by decide)))
      (add_le (single_le_outside (forall_mem_of_all (by decide))) one_le_stays)) hdigits
  exact mul_le_stays (mul_le_stays (mul_le_stays (add_le (char_le_stays rfl) one_le_stays) hint)
    (add_le hfrac one_le_stays)) (add_le hexp one_le_stays)

/-- An escape inside a string changes nothing: the backslash takes in the character after it, and
hexadecimal digits are neither quotes nor backslashes. -/
theorem escape_le_stays : escape ≤ stays ⟨k, deepest, true, false⟩ := by
  have hhexdig : hexdig ≤ stays ⟨k, deepest, true, false⟩ :=
    single_le_inside (forall_mem_of_all (by decide))
  rintro _ ⟨_, rfl, _, ⟨c, _, rfl⟩ | ⟨_, rfl, digits, hdigits, rfl⟩, rfl⟩
  · rfl
  · have hstays : digits.foldl advance ⟨k, deepest, true, false⟩ = ⟨k, deepest, true, false⟩ :=
      pow_le_stays hhexdig 4 hdigits
    exact hstays

/-- A string changes nothing. -/
theorem string_le_stays : string ≤ stays ⟨k, deepest, false, false⟩ := by
  have hunescaped : unescaped ≤ stays ⟨k, deepest, true, false⟩ :=
    single_le_inside (forall_mem_of_all (by decide))
  have hescape : escape ≤ stays ⟨k, deepest, true, false⟩ := escape_le_stays
  have hchars := kstar_le_stays (add_le hunescaped hescape)
  rintro _ ⟨_, ⟨_, rfl, chars, hmem, rfl⟩, _, rfl, rfl⟩
  have hmem : chars.foldl advance ⟨k, deepest, true, false⟩ = ⟨k, deepest, true, false⟩ :=
    hchars hmem
  change (['"'] ++ chars ++ ['"']).foldl advance _ = _
  rw [List.foldl_append, List.foldl_append]
  change (chars.foldl advance ⟨k, deepest, true, false⟩ |> advance) '"' = _
  rw [hmem]
  rfl

/-- A value that contains no others changes nothing. -/
theorem scalar_le_stays : scalar ≤ stays ⟨k, deepest, false, false⟩ := by
  have hword {text : List Char} (htext : text.foldl advance ⟨k, deepest, false, false⟩ =
      ⟨k, deepest, false, false⟩) : {text} ≤ stays ⟨k, deepest, false, false⟩ := by
    rintro _ rfl
    exact htext
  exact add_le (add_le (add_le (add_le (hword rfl) (hword rfl)) (hword rfl)) number_le_stays)
    string_le_stays

/-! ## Values -/

/-- An opening bracket, with blanks around it, goes one deeper. -/
theorem foldl_opening {c : Container} {m : List Char} (hm : m ∈ structural c.opening) :
    m.foldl advance ⟨k, deepest, false, false⟩ = ⟨k + 1, max deepest (k + 1), false, false⟩ := by
  obtain ⟨_, ⟨lead, hlead, _, rfl, rfl⟩, trail, htrail, rfl⟩ := hm
  have hlead : lead.foldl advance ⟨k, deepest, false, false⟩ = _ := ws_le_stays hlead
  have htrail : trail.foldl advance ⟨k + 1, max deepest (k + 1), false, false⟩ = _ :=
    ws_le_stays htrail
  have hbracket : advance ⟨k, deepest, false, false⟩ c.opening =
      ⟨k + 1, max deepest (k + 1), false, false⟩ := by
    cases c <;> rfl
  simp only [List.foldl_append, List.foldl_cons, List.foldl_nil, hlead, hbracket, htrail]

/-- A closing bracket, with blanks around it, comes one back. -/
theorem foldl_closing {c : Container} {m : List Char} (hm : m ∈ structural c.closing) :
    m.foldl advance ⟨k + 1, deepest, false, false⟩ = ⟨k, deepest, false, false⟩ := by
  obtain ⟨_, ⟨lead, hlead, _, rfl, rfl⟩, trail, htrail, rfl⟩ := hm
  have hlead : lead.foldl advance ⟨k + 1, deepest, false, false⟩ = _ := ws_le_stays hlead
  have htrail : trail.foldl advance ⟨k, deepest, false, false⟩ = _ := ws_le_stays htrail
  have hbracket : advance ⟨k + 1, deepest, false, false⟩ c.closing =
      ⟨k, deepest, false, false⟩ := by
    cases c <;> rfl
  simp only [List.foldl_append, List.foldl_cons, List.foldl_nil, hlead, hbracket, htrail]

/-- What is derived, read inside `k` brackets, leaves as many open and raises the greatest depth by
how deep it nests by itself. -/
theorem foldl_derives {symbol : Symbol} {d : Nat} {m : List Char} (h : Derives symbol d m)
    (hk : k ≤ deepest) : m.foldl advance ⟨k, deepest, false, false⟩ =
      ⟨k, max deepest (k + d), false, false⟩ := by
  induction h generalizing k deepest with
  | @scalar m hm =>
    have hstays : m.foldl advance ⟨k, deepest, false, false⟩ = _ := scalar_le_stays hm
    rw [hstays, Nat.add_zero, Nat.max_eq_left hk]
  | empty c ho hc => rw [List.foldl_append, foldl_opening ho, foldl_closing hc]
  | @full c d o m cl ho _ hc ih =>
    rw [List.foldl_append, List.foldl_append, foldl_opening ho, ih (Nat.le_max_right _ _),
      foldl_closing hc]
    have hmax : max (max deepest (k + 1)) (k + 1 + d) = max deepest (k + (d + 1)) := by omega
    rw [hmax]
  | element _ ih => exact ih hk
  | @member d n c m hn hc _ ih =>
    have hname : n.foldl advance ⟨k, deepest, false, false⟩ = _ := string_le_stays hn
    have hcolon : c.foldl advance ⟨k, deepest, false, false⟩ = _ := structural_le_stays rfl hc
    rw [List.foldl_append, List.foldl_append, hname, hcolon, ih hk]
  | last _ ih => exact ih hk
  | @more kind d m c e n _ hc _ ihm ihn =>
    have hcomma : c.foldl advance ⟨k, max deepest (k + d), false, false⟩ = _ :=
      structural_le_stays rfl hc
    rw [List.foldl_append, List.foldl_append, ihm hk, hcomma,
      ihn (Nat.le_trans hk (Nat.le_max_left _ _))]
    have hmax : max (max deepest (k + d)) (k + e) = max deepest (k + max d e) := by omega
    rw [hmax]

end Nesting

/-- The scan finds how deep arrays and objects nest in a JSON text. -/
theorem nestingDepth_of_text {d : Nat} {m : List Char} (hm : m ∈ text d) : nestingDepth m = d := by
  obtain ⟨_, ⟨lead, hlead, value, hvalue, rfl⟩, trail, htrail, rfl⟩ := hm
  have hlead : lead.foldl Nesting.advance ⟨0, 0, false, false⟩ = _ := Nesting.ws_le_stays hlead
  have hvalue := Nesting.foldl_derives hvalue (Nat.le_refl 0)
  have htrail : trail.foldl Nesting.advance ⟨0, max 0 (0 + d), false, false⟩ = _ :=
    Nesting.ws_le_stays htrail
  simp only [nestingDepth, Nesting.start, List.foldl_append, hlead, hvalue, htrail]
  omega

/-- Brackets in a string, and a quote that is escaped, count for nothing. -/
example : nestingDepth ['[', '"', '[', '\\', '"', ']', '[', '"', ']'] = 1 := by decide

end Descent.Json
