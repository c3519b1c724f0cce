import Descent.CommandLine.Reader
import Mathlib.Data.List.Nodup

/-!
# What a command line can give

No argument is given twice, and a path and a text are not given together (`agrees_of_read`): an
argument is only taken if it is not there yet, and at the end the two that do not go together are
looked for. One lemma for each step of reading says that this is kept, and that nothing but the end of
reading asks for a grammar to be run.
-/

namespace Descent.CommandLine

/-- The arguments that are given go together. -/
structure Agrees (given : List Given) : Prop where
  nodup : (given.map Given.argument).Nodup
  notBoth : .path ∉ given.map Given.argument ∨ .text ∉ given.map Given.argument

/-- Reading has ended well, or else not by asking for a grammar to be run. -/
def Ends {α : Type} (good : α → Prop) : Except Stop α → Prop
  | .ok a => good a
  | .error (.instead (.parse _)) => False
  | .error _ => True

namespace Ends

variable {α β : Type} {good : α → Prop} {good' : β → Prop} {x : Except Stop α}
  {f : α → Except Stop β}

/-- One thing is done after another. -/
theorem bind (hx : Ends good x) (hf : ∀ a, good a → Ends good' (f a)) : Ends good' (x >>= f) := by
  cases x with
  | ok a => exact hf a hx
  | error stop =>
    cases stop with
    | refused e => trivial
    | instead r => cases r <;> exact hx

end Ends

namespace Reader

/-- The arguments are different, and only those wait that need a value. -/
structure Sound (r : Reader) : Prop where
  nodup : (r.given.map Given.argument).Nodup
  pending : ∀ a value, r.pending = some (a, value) → a.takesValue = true

variable {r : Reader} {a : Argument}

/-- An argument is what it was taken for, unless it asks for something else. -/
theorem argument_of_give {value : String} {g : Given} (ha : a ≠ .help ∧ a ≠ .version)
    (h : give a value = .ok g) : g.argument = a := by
  cases a with
  | grammar =>
    simp only [give] at h
    cases hname : Builtin.ofName? value with
    | none => simp [hname] at h
    | some b =>
      obtain rfl : Given.grammar b = g := by simpa [hname] using h
      rfl
  | help => exact absurd rfl ha.1
  | version => exact absurd rfl ha.2
  | path | text | format | config | verbose =>
    obtain rfl := Except.ok.inj h
    rfl

/-- An argument is taken if it was not there yet. -/
theorem Sound.take (h : r.Sound) (ha : a ≠ .help ∧ a ≠ .version) (value : String) :
    Ends Sound (r.take a value) := by
  unfold Reader.take
  split
  · trivial
  next hnew =>
    cases hgive : give a value with
    | error e => trivial
    | ok g =>
      have hfresh : a ∉ r.given.map Given.argument := by
        intro hmem
        obtain ⟨g', hg', rfl⟩ := List.mem_map.1 hmem
        exact hnew (List.any_eq_true.2 ⟨g', hg', decide_eq_true rfl⟩)
      refine ⟨?_, h.pending⟩
      change ((r.given ++ [g]).map Given.argument).Nodup
      rw [List.map_append, List.map_singleton, argument_of_give ha hgive]
      exact List.nodup_append.2 ⟨h.nodup, List.nodup_singleton a, by
        intro x hx y hy
        rw [List.mem_singleton.1 hy]
        exact fun heq => hfresh (heq ▸ hx)⟩

/-- An argument with a value asks for nothing else. -/
theorem ne_of_takesValue (ha : a.takesValue = true) : a ≠ .help ∧ a ≠ .version := by
  constructor <;> (rintro rfl; cases ha)

/-- What was waiting is taken. -/
theorem Sound.settle (h : r.Sound) : Ends Sound r.settle := by
  unfold Reader.settle
  split
  · exact h
  next a value hpending =>
    have hrest : Sound { r with pending := none } := ⟨h.nodup, fun _ _ hnone => by cases hnone⟩
    exact hrest.take (ne_of_takesValue (h.pending a _ hpending)) value
  · trivial

/-- An option without a value is taken or asks for something else. -/
theorem Sound.takeFlag (h : r.Sound) (a : Argument) : Ends Sound (r.takeFlag a) := by
  refine h.settle.bind fun r hr => ?_
  cases a with
  | help | version => trivial
  | path | text | grammar | format | config | verbose =>
    exact hr.take ⟨by decide, by decide⟩ ""

/-- An option with its value is taken. -/
theorem Sound.takeAttached (h : r.Sound) (ha : a.takesValue = true) (value : String) :
    Ends Sound (r.takeAttached a value) :=
  h.settle.bind fun _ hr => hr.take (ne_of_takesValue ha) value

/-- An option waits for its value. -/
theorem Sound.await (h : r.Sound) (ha : a.takesValue = true) : Ends Sound (r.await a) := by
  refine h.settle.bind fun r hr => ⟨hr.nodup, fun b value hb => ?_⟩
  cases hb
  exact ha

/-- An option that is written out is taken. -/
theorem Sound.takeLong (h : r.Sound) (body : List Char) : Ends Sound (r.takeLong body) := by
  unfold Reader.takeLong
  split
  · dsimp only
    split
    · trivial
    next a value _ heq =>
      split
      next ha =>
        exact h.takeAttached ha value
      · trivial
    next heq =>
      cases heq
  · dsimp only
    split
    · trivial
    next heq =>
      cases heq
    next a _ _ =>
      split
      next ha =>
        exact h.await ha
      · exact h.takeFlag a

/-- Options that are single letters are taken. -/
theorem Sound.takeLetters (h : r.Sound) (letters : List Char) :
    Ends Sound (r.takeLetters letters) := by
  induction letters generalizing r with
  | nil => exact h
  | cons c rest ih =>
    unfold Reader.takeLetters
    split
    · trivial
    next a _ =>
      split
      next ha =>
        split
        · exact h.await ha
        · exact h.takeAttached ha _
        · exact h.takeAttached ha _
      · exact (h.takeFlag a).bind fun r hr => ih hr

/-- A word that is no option is taken for a value or a path. -/
theorem Sound.takeWord (h : r.Sound) (word : String) : Ends Sound (r.takeWord word) := by
  unfold Reader.takeWord
  split
  next a hpending _ =>
    refine ⟨h.nodup, fun b value hb => ?_⟩
    cases hb
    exact h.pending a none hpending
  · split
    · refine h.settle.bind fun r hr => ⟨hr.nodup, fun b value hb => ?_⟩
      cases hb
      rfl
    · trivial

/-- A word is taken. -/
theorem Sound.step (h : r.Sound) (word : String) : Ends Sound (r.step word) := by
  unfold Reader.step
  split
  · exact h.takeWord word
  · split
    · exact ⟨h.nodup, h.pending⟩
    · exact h.takeLong _
    · exact h.takeLetters _
    · exact h.takeWord word

/-- All words are taken. -/
theorem Sound.steps (h : r.Sound) (words : List String) : Ends Sound (r.steps words) := by
  unfold Reader.steps
  induction words generalizing r with
  | nil => exact h
  | cons word words ih =>
    rw [List.foldlM_cons]
    exact (h.step word).bind fun r hr => ih hr

/-- At the start nothing is given. -/
theorem sound_start (verb : Option Verb) : (start verb).Sound :=
  ⟨List.nodup_nil, fun _ _ h => by cases h⟩

/-- If a path and a text are given, and no argument twice, they are found. -/
theorem conflict?_ne_none {given : List Given} (hnodup : (given.map Given.argument).Nodup)
    (hpath : .path ∈ given.map Given.argument) (htext : .text ∈ given.map Given.argument) :
    conflict? given ≠ none := by
  have hfilter := hnodup.filter fun a => decide (a = .path ∨ a = .text)
  have hperm : ((given.map Given.argument).filter fun a => decide (a = .path ∨ a = .text)).Perm
      [.path, .text] := by
    refine (List.perm_ext_iff_of_nodup hfilter (by decide)).2 fun a => ?_
    simp only [List.mem_filter, decide_eq_true_eq, List.mem_cons, List.not_mem_nil, or_false]
    constructor
    · exact fun h => h.2
    · rintro (rfl | rfl)
      · exact ⟨hpath, .inl rfl⟩
      · exact ⟨htext, .inr rfl⟩
  obtain ⟨a, b, hpair⟩ := List.length_eq_two.1 hperm.length_eq
  unfold conflict?
  rw [hpair]
  exact Option.some_ne_none _

/-- What was given in the end goes together. -/
theorem Sound.finish (h : r.Sound) : Ends Agrees r.finish := by
  refine h.settle.bind fun r hr => ?_
  split
  · trivial
  next hconflict =>
    refine ⟨hr.nodup, ?_⟩
    by_contra hboth
    obtain ⟨hpath, htext⟩ := not_or.1 hboth
    exact conflict?_ne_none hr.nodup (not_not.1 hpath) (not_not.1 htext) hconflict

end Reader

namespace Request

/-- What a request gives to a run goes together. -/
def Agrees : Request → Prop
  | .parse given => CommandLine.Agrees given
  | _ => True

/-- Help is no run. -/
theorem ends_ofHelp (words : List String) : Ends Agrees (ofHelp words) := by
  induction words with
  | nil => trivial
  | cons word rest ih =>
    unfold ofHelp
    split
    · trivial
    next heq =>
      cases heq
      exact ih
    · split <;> trivial

/-- The words of a command are read to the end. -/
theorem ends_ofVerb (verb : Verb) (words : List String) : Ends Agrees (ofVerb verb words) := by
  refine ((Reader.sound_start (some verb)).steps words).bind fun r hr => ?_
  refine hr.finish.bind fun given hgiven => ?_
  cases verb with
  | parse => exact hgiven
  | grammars => trivial

/-- The words of a command line are read to the end. -/
theorem ends_ofWords {r : Reader} (h : r.Sound) (words : List String) :
    Ends Agrees (ofWords r words) := by
  induction words generalizing r with
  | nil => trivial
  | cons word rest ih =>
    unfold ofWords
    split
    · split <;> trivial
    · split
      · exact ends_ofVerb _ rest
      · split
        · exact ends_ofHelp rest
        · split
          · exact (h.step word).bind fun r hr => ih hr
          · trivial

/-- What a command line gives to a run goes together. -/
theorem agrees_of_read {words : List String} {given : List Given}
    (h : read words = .ok (.parse given)) : CommandLine.Agrees given := by
  have hends := ends_ofWords (Reader.sound_start none) words
  unfold read at h
  cases hwords : ofWords (Reader.start none) words with
  | ok r =>
    rw [hwords] at h hends
    cases h
    exact hends
  | error stop =>
    rw [hwords] at h hends
    cases stop with
    | refused e => cases h
    | instead r =>
      cases h
      exact hends.elim

end Request

end Descent.CommandLine
