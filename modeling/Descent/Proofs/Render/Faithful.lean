import Descent.Proofs.Render.Document
import Descent.Proofs.Text.Shown

/-!
# Renderings are faithful

An outcome can be read back from its text rendering and from its JSON rendering, so that neither
renders two outcomes alike. The text rendering is three lines, and what stands in the lines are no
control characters, since these are escaped or never shown. The JSON rendering is a document that the
grammar for JSON takes as a whole (`renderings_faithful`).
-/

namespace Descent

/-- An outcome is what its parts say. -/
@[simp] theorem Outcome.ofParts_parts (o : Outcome) :
    Outcome.ofParts o.ok o.matched o.remaining = o := by
  cases o <;> rfl

namespace Quoted

variable {c d mark : Char}

/-- Nothing in the escape of a code is a control character. -/
theorem not_isControl_codeEscape (h : d ∈ codeEscape c) : ¬IsControl d := by
  simp only [codeEscape, List.mem_append, List.mem_cons, List.not_mem_nil, or_false] at h
  rcases h with ((rfl | rfl | rfl) | hdigit) | rfl
  · decide
  · decide
  · decide
  · have hall : ∀ n < 16, ¬IsControl n.digitChar := by decide
    obtain ⟨n, hn, rfl⟩ := Escaping.exists_of_mem_toDigits hdigit
    exact hall n hn
  · decide

/-- Nothing that a character is written as is a control character. -/
theorem not_isControl_escape (hmark : ¬IsControl mark) (h : d ∈ escape mark c) : ¬IsControl d := by
  have hpair {e : Char} (he : ¬IsControl e) (hd : d ∈ ['\\', e]) : ¬IsControl d := by
    rcases List.mem_pair.1 hd with rfl | rfl
    · decide
    · exact he
  unfold escape at h
  split_ifs at h with _ _ _ _ hself hshows
  · exact hpair (by decide) h
  · exact hpair (by decide) h
  · exact hpair (by decide) h
  · exact hpair (by decide) h
  · rcases hself with rfl | rfl
    · exact hpair (by decide) h
    · exact hpair hmark h
  · obtain rfl := List.mem_singleton.1 h
    exact not_isControl_of_shows hshows
  · exact not_isControl_codeEscape h

/-- Quoted text has no control characters. -/
theorem not_isControl_text {s : List Char} (h : d ∈ text s) : ¬IsControl d := by
  simp only [text, List.mem_append, List.mem_singleton, List.mem_flatMap] at h
  rcases h with (rfl | ⟨c, _, hd⟩) | rfl
  · decide
  · exact not_isControl_escape (by decide) hd
  · decide

end Quoted

namespace Render

open Escaping Json.Flat

/-- The characters are so many lines, each with an end, and have no other control characters. -/
def IsLines (count : Nat) (chars : List Char) : Prop :=
  ∃ lines : List (List Char), lines.length = count ∧ chars = lines.flatMap (· ++ ['\n']) ∧
    ∀ line ∈ lines, ∀ c ∈ line, ¬Quoted.IsControl c

/-- The text rendering is three lines. -/
theorem isLines_text (o : Outcome) : IsLines 3 (text o) := by
  refine ⟨["ok: ".toList ++ truth o.ok, "matched: ".toList ++ Quoted.text o.matched,
    "remaining: ".toList ++ Quoted.text o.remaining.chars], rfl, ?_, ?_⟩
  · have hmatched : "\nmatched: ".toList = '\n' :: "matched: ".toList := by decide
    have hremaining : "\nremaining: ".toList = '\n' :: "remaining: ".toList := by decide
    unfold text
    simp only [hmatched, hremaining, List.flatMap_cons, List.flatMap_nil, List.append_assoc,
      List.cons_append, List.nil_append, List.append_nil]
  · have htruth : ∀ c ∈ truth o.ok, ¬Quoted.IsControl c := by
      cases o.ok <;> exact forall_mem_of_all (by decide)
    have hok : ∀ c ∈ "ok: ".toList, ¬Quoted.IsControl c := forall_mem_of_all (by decide)
    have hmatched : ∀ c ∈ "matched: ".toList, ¬Quoted.IsControl c := forall_mem_of_all (by decide)
    have hremaining : ∀ c ∈ "remaining: ".toList, ¬Quoted.IsControl c :=
      forall_mem_of_all (by decide)
    simp only [List.forall_mem_cons, List.forall_mem_append, List.not_mem_nil, false_implies,
      implies_true, and_true]
    exact ⟨⟨hok, htruth⟩, ⟨hmatched, fun c => Quoted.not_isControl_text⟩,
      ⟨hremaining, fun c => Quoted.not_isControl_text⟩⟩

/-- Reads quoted text that follows a name. -/
def readField? (name : String) (chars : List Char) : Option (List Char × List Char) := do
  let rest ← chars.dropPrefix? (name.toList ++ ['"'])
  inside Quoted.readChar '"' rest

/-- The outcome of which these three lines tell. -/
def readText? (chars : List Char) : Option Outcome := do
  let rest ← chars.dropPrefix? "ok: ".toList
  let (ok, rest) ← readTruth? rest
  let (matched, rest) ← readField? "\nmatched: " rest
  let (remaining, rest) ← readField? "\nremaining: " rest
  if rest = ['\n'] then some (.ofParts ok matched (.ofList remaining)) else none

/-- The outcome of which this document tells. -/
def readJson? (chars : List Char) : Option Outcome := do
  let members ← readObject? chars
  match members.lookup "ok".toList, members.lookup "matched".toList,
      members.lookup "remaining".toList with
  | some (.truth ok), some (.text matched), some (.text remaining) =>
    some (.ofParts ok matched (.ofList remaining))
  | _, _, _ => none

/-- Quoted text is read back. -/
theorem readField?_text (name : String) (s rest : List Char) :
    readField? name (name.toList ++ (Quoted.text s ++ rest)) = some (s, rest) := by
  have hdrop : (name.toList ++ (Quoted.text s ++ rest)).dropPrefix? (name.toList ++ ['"']) =
      some (s.flatMap (Quoted.escape '"') ++ '"' :: rest) := by
    refine List.dropPrefix?_eq_some_iff.2 ⟨name.toList ++ ['"'], ?_, beq_self_eq_true _⟩
    simp [Quoted.text]
  rw [readField?, hdrop]
  exact Quoted.inside_text s rest

/-- The outcome is read back from its text rendering. -/
theorem readText?_text (o : Outcome) : readText? (text o) = some o := by
  have hok (rest : List Char) : ("ok: ".toList ++ rest).dropPrefix? "ok: ".toList = some rest :=
    List.dropPrefix?_append_of_beq rest (by decide)
  unfold readText? text
  simp only [List.append_assoc, hok, readTruth?_truth, readField?_text,
    Option.bind_eq_bind, Option.bind_some, if_true, Text.ofList_chars, Outcome.ofParts_parts]

/-- The outcome is read back from its JSON rendering. -/
theorem readJson?_json (o : Outcome) : readJson? (json o) = some o := by
  have hmembers := readObject?_write ("ok".toList, .truth o.ok)
    [("matched".toList, .text o.matched), ("remaining".toList, .text o.remaining.chars)]
  rw [← json_eq] at hmembers
  rw [readJson?, hmembers]
  change some (Outcome.ofParts o.ok o.matched (.ofList o.remaining.chars)) = some o
  rw [Text.ofList_chars, Outcome.ofParts_parts]

/-- Renderings from which outcomes are read back tell outcomes apart. -/
theorem injective_of_read {read : List Char → Option Outcome} {render : Outcome → List Char}
    (h : ∀ o, read (render o) = some o) : Function.Injective render := by
  intro o₁ o₂ heq
  have hsame := h o₁
  rw [heq, h o₂] at hsame
  exact (Option.some.inj hsame).symm

/-- Every outcome is read back from its text rendering and from its JSON rendering, so outcomes with
the same rendering are the same. Every text rendering is three lines with their ends, without other
control characters. The grammar for JSON, wherever it is built, takes every JSON rendering as a whole
and leaves nothing. -/
theorem renderings_faithful {σ : Type} (site : Site σ) :
    (∀ o, readText? (Format.text.render o) = some o ∧ readJson? (Format.json.render o) = some o) ∧
    Function.Injective Format.text.render ∧ Function.Injective Format.json.render ∧
    (∀ o, IsLines 3 (Format.text.render o)) ∧
    ∃ p site', Json.grammar site = (.ok p, site') ∧ ∀ o, ∃ r,
      site'.store.run p (.ofList (Format.json.render o)) = some r ∧
        r.outcome = .success (Format.json.render o) (.ofList []) := by
  refine ⟨fun o => ⟨readText?_text o, readJson?_json o⟩, injective_of_read readText?_text,
    injective_of_read readJson?_json, isLines_text, _, _, Json.grammar_eq site, fun o => ?_⟩
  change ∃ r, (Json.builtStore site.store).run (Json.entryIn site.store) (.ofList (json o)) =
    some r ∧ r.outcome = .success (json o) (.ofList [])
  rw [json_eq]
  exact run_written site.store _ _

end Render

end Descent
