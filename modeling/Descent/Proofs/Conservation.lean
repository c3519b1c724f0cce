import Descent.Proofs.Backtracking

/-!
# A success matches what it takes

Where nothing is dropped on purpose, the match of a success and what is left of the input are the
input again, character for character, and so the bytes taken are those of the match. Each
combination puts together two matches and leaves what the second of them has left; the induction
follows a run through loops and rules (`run_conserves`).
-/

namespace Descent

/-- If the outcome is a success, its match and what is left make up the text. -/
def Outcome.Conserves (t : Text) : Outcome → Prop
  | success matched rest => matched ++ rest.chars = t.chars
  | failure _ => True

/-- An outcome that takes exactly what it matches conserves the text. -/
theorem Outcome.Exact.conserves {t : Text} {o : Outcome} (h : o.Exact t) : o.Conserves t := by
  cases o with
  | success matched rest => exact h
  | failure rest => trivial

/-- The bytes taken from a text that is conserved are those of the match. -/
theorem Outcome.Conserves.consumed_eq {t : Text} {o : Outcome} (h : o.Conserves t)
    (hok : o.ok = true) : o.consumed t = utf8Size o.matched := by
  cases o with
  | failure rest => cases hok
  | success matched rest =>
    have hsize : t.size = utf8Size matched + rest.size := Text.size_eq_add h.symm
    simp only [consumed, remaining, Outcome.matched]
    omega

namespace Parser

/-- A parser that by itself drops nothing: a function written by hand matches what it takes, a
pattern begins every match where the text begins, and no match is ignored. -/
def Conserving : Parser → Prop
  | handmade _ run => ∀ t, (run t).Conserves t
  | pattern p => ∀ chars first last, p.find chars = some (first, last) → first = 0
  | thenIgnore .. => False
  | ignoreThen .. => False
  | _ => True

/-- A sequence or choice drops nothing by itself. -/
theorem conserving_neutral : Neutral Conserving :=
  ⟨fun _ _ => trivial, fun _ _ => trivial, fun _ _ => trivial, trivial⟩

/-- A conserving parser without parts conserves the text. -/
theorem direct_conserves {p : Parser} {f : Text → Outcome} (t : Text) (hp : p.direct? = some f)
    (hgood : p.Conserving) : (f t).Conserves t := by
  rcases direct_exact t hp with hexact | ⟨q, rfl, rfl⟩ | ⟨name, rfl⟩
  · exact hexact.conserves
  · unfold Step.found
    cases hfind : q.find t.chars with
    | none => trivial
    | some place =>
      obtain ⟨first, last⟩ := place
      have hfirst : first = 0 := hgood t.chars first last hfind
      subst hfirst
      simp [Outcome.Conserves, List.take_append_drop]
  · exact hgood t

/-- A conserving sequence is one that keeps both matches. -/
theorem Joins.eq_append {keep : List Char → List Char → List Char} {a b p : Parser}
    (h : Joins keep a b p) (hp : p.Conserving) : keep = (· ++ ·) := by
  cases h with
  | andThen => rfl
  | thenIgnore => exact absurd hp id
  | ignoreThen => exact absurd hp id

end Parser

namespace Store

variable {s : Store} {p : Parser} {t : Text} {r : Run}

/-- A parser that drops nothing conserves the text. -/
theorem Runs.conserves (h : s.Runs p t r) (hp : s.Everywhere Parser.Conserving p) :
    r.outcome.Conserves t := by
  induction h with
  | direct t hdirect => exact Parser.direct_conserves t hdirect hp.self
  | expand hexpand _ ih => exact ih (hp.expand Parser.conserving_neutral hexpand)
  | first b _ ih => exact ih (hp.child (by simp [Parser.children]))
  | second _ _ _ ih => exact ih (hp.child (by simp [Parser.children]))
  | breaks | breaksLate => trivial
  | @joins keep a b p t m x l n y l' hjoins _ _ iha ihb =>
    have hkeep := hjoins.eq_append hp.self
    have hleft : m ++ x.chars = t.chars := iha (hp.joins hjoins).1
    have hright : n ++ y.chars = x.chars := ihb (hp.joins hjoins).2
    subst hkeep
    calc m ++ n ++ y.chars = m ++ (n ++ y.chars) := List.append_assoc ..
      _ = t.chars := by rw [hright, hleft]
  | stop => rfl
  | last _ _ ih => exact ih (hp.child (by simp [Parser.children]))
  | @more body t m x l n y l' _ _ _ ihb ihrest =>
    have hstep : m ++ x.chars = t.chars := ihb (hp.child (by simp [Parser.children]))
    have hrest : n ++ y.chars = x.chars := ihrest hp
    calc m ++ n ++ y.chars = m ++ (n ++ y.chars) := List.append_assoc ..
      _ = t.chars := by rw [hrest, hstep]
  | never => trivial
  | once _ _ _ ih => exact ih (.intro trivial (fun c hc => hp.child hc) (by simp [Parser.target?]))
  | objected => trivial
  | admitted _ _ ih => exact ih (hp.child (by simp [Parser.children]))
  | dead | missing => trivial
  | rule htarget hrule _ ih => exact ih (hp.called htarget hrule)

end Store

/-- Conservation: a parser without `thenIgnore` and `ignoreThen`, in which functions written by hand
match what they take and patterns match at the start, splits its input into match and rest whenever
it succeeds, at whatever depth it runs; and it has taken as many bytes as its match has. -/
theorem run_conserves {s : Store} {p : Parser} {t : Text} {r : Run} {depth : Nat}
    (hp : s.Everywhere Parser.Conserving p) (h : s.step depth p t = some r)
    (hok : r.outcome.ok = true) :
    r.outcome.matched ++ r.outcome.remaining.chars = t.chars ∧
      r.outcome.consumed t = utf8Size r.outcome.matched := by
  have hconserves := (Store.Runs.of_step h).conserves hp
  refine ⟨?_, hconserves.consumed_eq hok⟩
  obtain ⟨o, log⟩ := r
  cases o with
  | success matched rest => exact hconserves
  | failure rest => cases hok

/-- Nested brackets and a letter: four brackets of three bytes each are matched, the letter is left.
-/
theorem run_conserves_angles :
    let t : Text := .ofList ['⟨', '⟨', '⟩', '⟩', 'é']
    Store.angles.Everywhere Parser.Conserving Store.anglesEntry ∧
      ∃ r, Store.angles.step 4 Store.anglesEntry t = some r ∧ r.outcome.ok = true ∧
        r.outcome.matched ++ r.outcome.remaining.chars = t.chars ∧
        r.outcome.consumed t = utf8Size r.outcome.matched ∧ r.outcome.consumed t = 12 := by
  intro t
  have hp : Store.angles.Everywhere Parser.Conserving Store.anglesEntry :=
    Store.everywhere_anglesEntry (fun _ _ => trivial) (fun _ _ => trivial) (fun _ => trivial)
      (fun _ _ _ => trivial) (fun _ => trivial)
  have h := @run_conserves Store.angles Store.anglesEntry t _ 4 hp rfl rfl
  exact ⟨hp, _, rfl, rfl, h.1, h.2, rfl⟩

end Descent
