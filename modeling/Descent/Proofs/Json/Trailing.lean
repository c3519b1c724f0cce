import Descent.Proofs.Json.Exactness

/-!
# Blanks at the end of a JSON text

Literals, numbers and strings end in something other than a blank, and what blanks follow the last
bracket of a value belong to that bracket. So blanks at the end of a text are blanks around its value:
with and without them it is JSON or not, and nests equally deep (`append_mem_text_iff`). The grammar
accepts both or neither (`ok_iff_mem_text`).
-/

namespace Descent.Json

namespace Standard

open Computability

/-- The blanks. -/
def blanks : List Char := [' ', '\t', '\n', '\r']

variable {a b : Language Char} {c : Char} {d : Nat} {front m n : List Char} {symbol : Symbol}

/-! ## Words that end in something else -/

/-- The words that end in a character that is not a blank. -/
def solid : Language Char := {m | ∃ front c, c ∉ blanks ∧ m = front ++ [c]}

/-- The end of a word is the end of its last part. -/
theorem mul_le_solid (hb : b ≤ solid) : a * b ≤ solid := by
  rintro _ ⟨x, _, y, hy, rfl⟩
  obtain ⟨front, c, hc, rfl⟩ := hb hy
  exact ⟨x ++ front, c, hc, (List.append_assoc ..).symm⟩

/-- The last part may be missing. -/
theorem mul_add_one_le_solid (ha : a ≤ solid) (hb : b ≤ solid) : a * (b + 1) ≤ solid := by
  rintro _ ⟨x, hx, y, hy | hnil, rfl⟩
  · exact mul_le_solid hb (Language.append_mem_mul hx hy)
  · obtain rfl : y = [] := hnil
    change x ++ [] ∈ solid
    rw [List.append_nil]
    exact ha hx

/-- The last part may stand there any number of times. -/
theorem mul_kstar_le_solid (ha : a ≤ solid) (hb : b ≤ solid) : a * b∗ ≤ solid := by
  have hstar : b∗ = b∗ * b + 1 := by
    rw [add_comm, Language.one_add_kstar_mul_self_eq_kstar]
  rw [hstar]
  exact mul_add_one_le_solid ha (mul_le_solid hb)

/-- No character of a kind is a blank. -/
theorem single_le_solid {kind : Char → Prop} (h : ∀ c ∈ blanks, ¬ kind c) :
    single kind ≤ solid := by
  rintro _ ⟨c, hc, rfl⟩
  exact ⟨[], c, fun hmem => h c hmem hc, rfl⟩

/-- A number ends in a digit. -/
theorem number_le_solid : number ≤ solid := by
  have hdigit : digit ≤ solid := single_le_solid (forall_mem_of_all (by decide))
  have hnonzero : nonzero ≤ solid := single_le_solid (forall_mem_of_all (by decide))
  have hdigits : digit * digit∗ ≤ solid := mul_kstar_le_solid hdigit hdigit
  have hint : int ≤ solid := by
    refine add_le ?_ (mul_kstar_le_solid hnonzero hdigit)
    rintro _ rfl
    exact ⟨[], '0', by decide, rfl⟩
  exact mul_add_one_le_solid (mul_add_one_le_solid (mul_le_solid hint) (mul_le_solid hdigits))
    (mul_le_solid hdigits)

/-- A value that contains no others does not end in a blank. -/
theorem scalar_le_solid : scalar ≤ solid := by
  have hstring : string ≤ solid := by
    refine mul_le_solid ?_
    rintro _ rfl
    exact ⟨[], '"', by decide, rfl⟩
  refine add_le (add_le (add_le (add_le ?_ ?_) ?_) number_le_solid) hstring
  · rintro _ rfl
    exact ⟨"fals".toList, 'e', by decide, rfl⟩
  · rintro _ rfl
    exact ⟨"nul".toList, 'l', by decide, rfl⟩
  · rintro _ rfl
    exact ⟨"tru".toList, 'e', by decide, rfl⟩

/-- The last character of a word with a last part is that of the part. -/
theorem exists_of_append_eq_concat (hn : n ≠ []) (h : m ++ n = front ++ [c]) :
    ∃ n', n = n' ++ [c] ∧ front = m ++ n' := by
  obtain ⟨n', d, rfl⟩ := (List.eq_nil_or_concat n).resolve_left hn
  rw [List.concat_eq_append, ← List.append_assoc] at h
  obtain ⟨rfl, hd⟩ := List.append_inj' h rfl
  cases hd
  exact ⟨n', List.concat_eq_append, rfl⟩

/-! ## A blank at the end -/

/-- Fewer blanks are blanks. -/
theorem ws_of_concat (h : front ++ [c] ∈ ws) : front ∈ ws :=
  mem_kstar_single_iff.2 fun d hd => mem_kstar_single_iff.1 h d (List.mem_append_left _ hd)

/-- A blank at the end of a bracket or separator is one of those after it. -/
theorem structural_of_concat {bracket : Char} (hbracket : bracket ∉ blanks) (hc : c ∈ blanks)
    (h : front ++ [c] ∈ structural bracket) : front ∈ structural bracket := by
  obtain ⟨lead, hlead, trail, htrail, heq⟩ := h
  by_cases hnil : trail = []
  · subst hnil
    obtain ⟨before, _, _, rfl, rfl⟩ := hlead
    obtain ⟨_, hsame⟩ := List.append_inj' ((List.append_nil _).symm.trans heq) rfl
    cases hsame
    exact absurd hc hbracket
  · obtain ⟨trail', rfl, rfl⟩ := exists_of_append_eq_concat hnil heq
    exact Language.append_mem_mul hlead (ws_of_concat htrail)

/-- A bracket or separator is there. -/
theorem ne_nil_of_structural {bracket : Char} (h : m ∈ structural bracket) : m ≠ [] := by
  obtain ⟨_, ⟨lead, _, _, rfl, rfl⟩, trail, _, rfl⟩ := h
  simp

/-- A closing bracket is no blank. -/
theorem Container.closing_not_mem (k : Container) : k.closing ∉ blanks := by
  cases k <;> decide

/-- Without a blank at its end, what is derived is derived as well. -/
theorem Derives.of_concat (h : Derives symbol d m) (hc : c ∈ blanks) :
    m ≠ [] ∧ ∀ front, m = front ++ [c] → Derives symbol d front := by
  induction h with
  | scalar hm =>
    obtain ⟨front', c', hc', rfl⟩ := scalar_le_solid hm
    refine ⟨by simp, fun front heq => ?_⟩
    obtain ⟨_, hsame⟩ := List.append_inj' heq rfl
    cases hsame
    exact absurd hc hc'
  | @empty k o cl ho hcl =>
    refine ⟨fun hnil => ne_nil_of_structural hcl (List.append_eq_nil_iff.1 hnil).2, ?_⟩
    rintro front heq
    obtain ⟨cl', rfl, rfl⟩ := exists_of_append_eq_concat (ne_nil_of_structural hcl) heq
    exact .empty k ho (structural_of_concat k.closing_not_mem hc hcl)
  | @full k d o m cl ho hm hcl _ =>
    refine ⟨fun hnil => ne_nil_of_structural hcl (List.append_eq_nil_iff.1 hnil).2, ?_⟩
    rintro front heq
    obtain ⟨cl', rfl, rfl⟩ := exists_of_append_eq_concat (ne_nil_of_structural hcl) heq
    exact .full k ho hm (structural_of_concat k.closing_not_mem hc hcl)
  | element _ ih => exact ⟨ih.1, fun front heq => .element (ih.2 front heq)⟩
  | @member d n sep m hn hsep _ ih =>
    refine ⟨fun hnil => ih.1 (List.append_eq_nil_iff.1 hnil).2, fun front heq => ?_⟩
    obtain ⟨m', hm', rfl⟩ := exists_of_append_eq_concat ih.1 heq
    exact .member hn hsep (ih.2 m' hm')
  | last _ ih => exact ⟨ih.1, fun front heq => .last (ih.2 front heq)⟩
  | @more k d m sep e n hm hsep _ _ ih =>
    refine ⟨fun hnil => ih.1 (List.append_eq_nil_iff.1 hnil).2, fun front heq => ?_⟩
    obtain ⟨n', hn', rfl⟩ := exists_of_append_eq_concat ih.1 heq
    exact .more hm hsep (ih.2 n' hn')

/-- Without a blank at its end, a text is JSON as well. -/
theorem text_of_concat (hc : c ∈ blanks) (h : front ++ [c] ∈ text d) : front ∈ text d := by
  obtain ⟨_, ⟨lead, hlead, value, hvalue, rfl⟩, trail, htrail, heq⟩ := h
  by_cases hnil : trail = []
  · subst hnil
    obtain ⟨hne, hvalue⟩ := Derives.of_concat hvalue hc
    obtain ⟨value', rfl, rfl⟩ :=
      exists_of_append_eq_concat hne ((List.append_nil _).symm.trans heq)
    exact ⟨_, Language.append_mem_mul hlead (hvalue value' rfl), [], htrail, List.append_nil _⟩
  · obtain ⟨trail', rfl, rfl⟩ := exists_of_append_eq_concat hnil heq
    exact Language.append_mem_mul (Language.append_mem_mul hlead hvalue) (ws_of_concat htrail)

/-- With and without blanks at its end a text is JSON or not, and nests equally deep. -/
theorem append_mem_text_iff (hn : n ∈ ws) : m ++ n ∈ text d ↔ m ∈ text d := by
  constructor
  · intro h
    induction n using List.reverseRecOn with
    | nil => rwa [List.append_nil] at h
    | append_singleton n c ih =>
      have hc : c ∈ blanks := mem_kstar_single_iff.1 hn c (by simp)
      rw [← List.append_assoc] at h
      exact ih (ws_of_concat hn) (text_of_concat hc h)
  · rintro ⟨front, hfront, trail, htrail, rfl⟩
    rw [List.append_assoc]
    exact Language.append_mem_mul hfront (append_mem_ws htrail hn)

end Standard

open Store

variable {s : Store} {table : Nat} {t : Text} {r : Run}

/-- A run succeeds just on the JSON texts that nest no deeper than is allowed. -/
theorem ok_iff_mem_text (htable : s.table table = .ready (rules table))
    (h : s.Runs (ref table .document) t r) :
    r.outcome.ok = true ↔ ∃ d ≤ maxDepth, t.chars ∈ Standard.text d := by
  obtain ⟨o, l⟩ := r
  constructor
  · intro hok
    cases o with
    | success m x => exact (text_of_runs htable h).2.2
    | failure x => cases hok
  · rintro ⟨d, hd, hm⟩
    obtain ⟨l', haccepts⟩ := accepts_document htable hm hd
    rw [List.append_nil, Text.ofList_chars] at haccepts
    rw [h.unique haccepts]
    rfl

end Descent.Json
