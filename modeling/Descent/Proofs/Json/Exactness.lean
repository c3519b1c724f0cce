import Descent.Proofs.Json.Completeness
import Descent.Proofs.Json.Nesting
import Descent.Proofs.Json.Soundness

/-!
# The JSON grammar is exact

The grammar succeeds on the JSON texts that do not nest too deeply, takes all of each, and fails on
every other text (`grammar_exact`). Its runs always end; what they match is JSON, up to the end of
the text, and the scan has found the depth that the text really has; and what is JSON they accept.
-/

namespace Descent.Json

open Store

variable {s : Store} {table : Nat} {m : List Char} {t : Text}

/-- A text is objected to just if the scan finds more depth than is allowed. -/
theorem tooDeep_eq_none_iff : tooDeep t = none ↔ nestingDepth t.chars ≤ maxDepth := by
  simp [tooDeep]

/-- A JSON text within the limit is accepted as a whole. -/
theorem accepts_document (htable : s.table table = .ready (rules table)) {d : Nat}
    (hm : m ∈ Standard.text d) (hd : d ≤ maxDepth) : s.Accepts (ref table .document) m [] := by
  have hobjection : tooDeep (.ofList m) = none :=
    tooDeep_eq_none_iff.2 ((nestingDepth_of_text hm).trans_le hd)
  obtain ⟨_, ⟨lead, hlead, value, hvalue, rfl⟩, trail, htrail, rfl⟩ := hm
  obtain ⟨before, core, after, hbefore, hafter, hbegins, haccepts, rfl⟩ :=
    accepted_of_derives htable hvalue
  have hend : ValueEnds (after ++ trail ++ []) :=
    .append (append_mem_ws hafter htrail) fun c hc => by cases hc
  have hblanks : s.Accepts (.orElse (ref table .ws) .empty) (lead ++ before)
      (core ++ (after ++ trail ++ [])) :=
    accepts_blanks htable (append_mem_ws hlead hbefore) (hbegins.tight fun _ hc => hc)
  have htrail : s.Accepts (.orElse (ref table .ws) .empty) (after ++ trail) [] :=
    accepts_blanks htable (append_mem_ws hafter htrail) fun c hc => by cases hc
  have hall := Accepts.andThen
    (.thenOptional (.optionalThen hblanks (haccepts _ hend)) htrail) .eof
  have happend : lead ++ before ++ core ++ (after ++ trail) ++ [] =
      lead ++ (before ++ core ++ after) ++ trail := by simp
  rw [happend] at hall
  refine accepts_ref htable .document (.guarded ?_ hall)
  rw [List.append_nil]
  exact hobjection

/-- What is accepted as a document is a JSON text within the limit, with nothing after it. -/
theorem text_of_runs (htable : s.table table = .ready (rules table)) {x : Text} {l : Log}
    (h : s.Runs (ref table .document) t ⟨.success m x, l⟩) :
    x = .ofList [] ∧ m = t.chars ∧ ∃ d ≤ maxDepth, t.chars ∈ Standard.text d := by
  obtain ⟨d, hm⟩ := mem_words_of_runs htable h
  have hplain := everywhere_plain htable (all_ref table .document)
  have hconserves : m ++ x.chars = t.chars := h.conserves fun q hq => (hplain q hq).2.1
  obtain ⟨o, l', hbody, heq⟩ := h.rule_cases rfl (rule?_slot htable .document)
  cases heq
  rcases Runs.guarded_cases hbody with ⟨e, _, heq⟩ | ⟨hobjection, hbody⟩
  · cases heq
  · rcases hbody.joins_cases (.andThen ..) with ⟨_, _, _, heq⟩ | ⟨_, _, _, _, _, _, _, heq⟩ |
      ⟨value, y, l, n, x, l', _, heof, heq⟩
    · cases heq
    · cases heq
    · cases heq
      have hend : x.chars = [] := by
        have heof := congrArg Run.outcome (heof.eq_direct rfl)
        simp only [Step.eof] at heof
        split at heof
        next hempty =>
          cases heof
          exact Text.isEmpty_iff.1 hempty
        · cases heof
      have hall : value ++ n = t.chars := by rwa [hend, List.append_nil] at hconserves
      have hdepth := tooDeep_eq_none_iff.1 hobjection
      rw [← hall, nestingDepth_of_text hm] at hdepth
      exact ⟨Text.ext hend, hall, d, hdepth, hall ▸ hm⟩

/-- On a text that is not JSON within the limit the run hands back the text in failure. -/
theorem outcome_of_not_text (htable : s.table table = .ready (rules table)) {r : Run}
    (h : s.Runs (ref table .document) t r) (ht : ¬∃ d ≤ maxDepth, t.chars ∈ Standard.text d) :
    r.outcome = .failure t := by
  have hplain := everywhere_plain htable (all_ref table .document)
  obtain ⟨o, l⟩ := r
  cases o with
  | success m x => exact absurd (text_of_runs htable h).2.2 ht
  | failure x => rw [h.failure_eq (fun q hq => (hplain q hq).1) rfl]

/-- Exactness: wherever the grammar of JSON is built, it is built, and its parser ends on every
text. It succeeds, takes the whole text and leaves nothing if the text is JSON in which arrays and
objects nest at most as deep as is allowed, and hands back the text in failure if it is anything
else. -/
theorem grammar_exact {σ : Type} (site : Site σ) :
    ∃ p site', grammar site = (.ok p, site') ∧
      ∀ t, ∃ r, site'.store.run p t = some r ∧
        ((∃ d ≤ maxDepth, t.chars ∈ Standard.text d) ∧
            r.outcome = .success t.chars (.ofList []) ∨
          (¬∃ d ≤ maxDepth, t.chars ∈ Standard.text d) ∧ r.outcome = .failure t) := by
  refine ⟨_, _, grammar_eq site, fun t => ?_⟩
  let table := site.store.tables.size
  let s : Store := ⟨site.store.tables.push (.ready (rules table))⟩
  have htable : s.table table = .ready (rules table) := by simp [s, table, Store.table]
  have hentry : s.run (.entry "document" ⟨table, RuleName.document.slot⟩) t =
      s.run (ref table .document) t :=
    (step_of_target rfl).trans (step_of_target rfl).symm
  have hinside : (ref table .document).All (Inside table) :=
    (all_ref table .document).imp fun q hq => ⟨hq.1.shrinking, hq.2.2⟩
  obtain ⟨r, hr⟩ := Option.isSome_iff_exists.1 ((layered htable).run_isSome hinside (by omega) t)
  refine ⟨r, hentry.trans hr, ?_⟩
  by_cases ht : ∃ d ≤ maxDepth, t.chars ∈ Standard.text d
  · obtain ⟨d, hd, hm⟩ := ht
    obtain ⟨l, haccepts⟩ := accepts_document htable hm hd
    rw [List.append_nil, Text.ofList_chars] at haccepts
    rw [(Runs.of_step hr).unique haccepts]
    exact .inl ⟨⟨d, hd, hm⟩, rfl⟩
  · exact .inr ⟨ht, outcome_of_not_text htable (.of_step hr) ht⟩

end Descent.Json
