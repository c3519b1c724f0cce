import Descent.CommandLine.Basic
import Descent.Proofs.CommandLine.Reading
import Descent.Proofs.Settings.Mention

/-!
# The input of a run

The input is a text that is given, as it is, or what the bytes of a file or of the standard input write
as UTF-8, maybe without one line end at its end. Here this is said without any reading, and what a run
reads is just that (`input_eq_ok_iff`).
-/

namespace Descent.CommandLine

variable {s : Surroundings} {given : List Given} {trims : Bool} {whole text : List Char}
  {bytes : ByteArray}

/-- A text without one line end at its end, if there is one: a carriage return in front of the line
feed belongs to it. -/
inductive WithoutLineEnd (text : List Char) : List Char → Prop
  | both : WithoutLineEnd text (text ++ ['\r', '\n'])
  | one (htext : text.getLast? ≠ some '\r') : WithoutLineEnd text (text ++ ['\n'])
  | none (htext : text.getLast? ≠ some '\n') : WithoutLineEnd text text

/-- Just one line end is dropped. -/
theorem dropFinalLineEnd_eq_iff : dropFinalLineEnd whole = text ↔ WithoutLineEnd text whole := by
  constructor
  · rintro rfl
    unfold dropFinalLineEnd
    split
    next rest hrest =>
      obtain rfl : whole = rest.reverse ++ ['\r', '\n'] := by
        simpa using congrArg List.reverse hrest
      exact .both
    next rest hno hrest =>
      obtain rfl : whole = rest.reverse ++ ['\n'] := by simpa using congrArg List.reverse hrest
      refine .one fun hlast => ?_
      obtain ⟨rest', rfl⟩ := List.head?_eq_some_iff.1 (List.getLast?_reverse.symm.trans hlast)
      exact hno rest' rfl
    next hboth hone =>
      refine .none fun hlast => ?_
      obtain ⟨rest, hrest⟩ := List.head?_eq_some_iff.1 (List.head?_reverse.trans hlast)
      exact hone rest hrest
  · intro h
    cases h with
    | both => simp [dropFinalLineEnd]
    | one htext =>
      rw [← List.head?_reverse] at htext
      unfold dropFinalLineEnd
      rw [List.reverse_append]
      cases hrev : text.reverse with
      | nil => simpa using congrArg List.reverse hrev
      | cons c rest =>
        have hc : c ≠ '\r' := fun heq => htext (by simp [hrev, heq])
        simpa [hc] using (congrArg List.reverse hrev).symm
    | none htext =>
      rw [← List.head?_reverse] at htext
      unfold dropFinalLineEnd
      split
      next rest hrest =>
        exact absurd (congrArg List.head? hrest) htext
      next rest _ hrest =>
        exact absurd (congrArg List.head? hrest) htext
      · rfl

/-- The text of some bytes is the one that they write as UTF-8. -/
theorem textOf_eq_ok_iff : textOf bytes = .ok text ↔ text.utf8Encode = bytes := by
  unfold textOf String.fromUTF8?
  by_cases hvalid : bytes.IsValidUTF8
  · rw [dif_pos hvalid]
    constructor
    · intro h
      obtain rfl := Except.ok.inj h
      rw [← String.toByteArray_ofList, String.ofList_toList]
      rfl
    · intro h
      have hsame : String.fromUTF8 bytes hvalid = String.ofList text := by
        rw [← String.toByteArray_inj, String.toByteArray_ofList, h]
        rfl
      simp only [hsame, String.toList_ofList]
  · rw [dif_neg hvalid]
    constructor
    · intro h
      cases h
    · intro h
      refine absurd ?_ hvalid
      rw [← h, ← String.toByteArray_ofList]
      exact (String.ofList text).isValidUTF8

/-! ## Where the input is -/

/-- Some bytes are to be read: those of a file whose path is given, or else, and if the path is a
hyphen, those of the standard input. -/
inductive Source (s : Surroundings) (given : List Given) : Except ReadError ByteArray → Prop
  | file {path : String} (hpath : .path path ∈ given) (hne : path ≠ "-") :
      Source s given (s.file path)
  | standard (hpath : ∀ path, .path path ∈ given → path = "-") : Source s given (.ok s.input)

/-- The input of a run. -/
inductive Input (s : Surroundings) (given : List Given) (trims : Bool) (text : List Char) : Prop
  /-- The text that is given, as it is. -/
  | given {t : String} (ht : .text t ∈ given) (htext : text = t.toList)
  /-- What the bytes write that are to be read, without a line end if that is dropped. -/
  | read {whole : List Char} (hnone : ∀ t, .text t ∉ given)
      (hbytes : Source s given (.ok whole.utf8Encode))
      (htext : if trims then WithoutLineEnd text whole else text = whole)

/-- Of arguments that go together one is found just if it is given. -/
theorem findSome?_eq_some_iff {α : Type} (h : Agrees given) {f : Given → Option α}
    {make : α → Given} {a : α} {argument : Argument} (hf : ∀ g a, f g = some a ↔ g = make a)
    (hargument : ∀ a, (make a).argument = argument) :
    given.findSome? f = some a ↔ make a ∈ given := by
  constructor
  · intro hfound
    obtain ⟨g, hg, hga⟩ := List.exists_of_findSome?_eq_some hfound
    rwa [← (hf g a).1 hga]
  · intro hmem
    have hmake : f (make a) = some a := (hf _ a).2 rfl
    have hsome : (given.findSome? f).isSome := List.findSome?_isSome_iff.2 ⟨_, hmem, by simp [hmake]⟩
    obtain ⟨b, hb⟩ := Option.isSome_iff_exists.1 hsome
    obtain ⟨g, hg, hgb⟩ := List.exists_of_findSome?_eq_some hb
    obtain rfl := (hf g b).1 hgb
    -- Both are the same argument, and no argument is given twice.
    have hsame : make b = make a :=
      List.inj_on_of_nodup_map h.nodup hg hmem ((hargument b).trans (hargument a).symm)
    rw [hb, ← hmake, ← hsame, hgb]

/-- The text is found just if it is given. -/
theorem text?_eq_some_iff (h : Agrees given) {t : String} :
    text? given = some t ↔ .text t ∈ given := by
  have hargument (t : String) : (Given.text t).argument = .text := rfl
  refine findSome?_eq_some_iff h (fun g a => ?_) hargument
  cases g <;> simp [eq_comm]

/-- The path is found just if it is given. -/
theorem path?_eq_some_iff (h : Agrees given) {path : String} :
    path? given = some path ↔ .path path ∈ given := by
  have hargument (path : String) : (Given.path path).argument = .path := rfl
  refine findSome?_eq_some_iff h (fun g a => ?_) hargument
  cases g <;> simp [eq_comm]

/-- The bytes to be read: the standard input, if no path is given or a hyphen is, and else the file. -/
def source (s : Surroundings) (given : List Given) : Except ReadError ByteArray :=
  match path? given with
  | none | some "-" => .ok s.input
  | some path => s.file path

/-- The source of a run is the bytes that are to be read. -/
theorem source_iff (h : Agrees given) {content : Except ReadError ByteArray} :
    Source s given content ↔ content = source s given := by
  constructor
  · rintro (⟨hpath, hne⟩ | hpath)
    · have hfound := (path?_eq_some_iff h).2 hpath
      unfold source
      rw [hfound]
      split
      next heq =>
        cases heq
      next heq =>
        exact absurd (Option.some.inj heq) hne
      next heq =>
        rw [Option.some.inj heq]
    · unfold source
      split
      · rfl
      · rfl
      next path hne heq =>
        exact absurd (hpath path ((path?_eq_some_iff h).1 heq)) hne
  · rintro rfl
    unfold source
    split
    next heq =>
      exact .standard fun path hpath => by cases heq.symm.trans ((path?_eq_some_iff h).2 hpath)
    next heq =>
      exact .standard fun path hpath =>
        (Option.some.inj (heq.symm.trans ((path?_eq_some_iff h).2 hpath))).symm
    next path hne heq =>
      exact .file ((path?_eq_some_iff h).1 heq) hne

/-- A text that is not given is what the bytes write that are to be read. -/
theorem input_of_no_text (hnone : text? given = none) : input s given trims = do
    let whole ← source s given >>= textOf
    return if trims then dropFinalLineEnd whole else whole := by
  unfold input source
  rw [hnone]
  cases path? given with
  | none => rfl
  | some path =>
    by_cases hpath : path = "-"
    · subst hpath
      rfl
    · simp only
      rfl

/-- The input is read just if there is one. -/
theorem input_eq_ok_iff (h : Agrees given) :
    input s given trims = .ok text ↔ Input s given trims text := by
  cases htext : text? given with
  | some t =>
    have hmem := (text?_eq_some_iff h).1 htext
    have hinput : input s given trims = .ok t.toList := by
      unfold input
      rw [htext]
    rw [hinput]
    constructor
    · intro heq
      exact .given hmem (Except.ok.inj heq).symm
    · rintro (⟨hmem', rfl⟩ | ⟨hnone, _, _⟩)
      · cases htext.symm.trans ((text?_eq_some_iff h).2 hmem')
        rfl
      · exact absurd hmem (hnone t)
  | none =>
    have hnone : ∀ t, .text t ∉ given := fun t ht => by
      cases htext.symm.trans ((text?_eq_some_iff h).2 ht)
    rw [input_of_no_text htext]
    constructor
    · intro hok
      obtain ⟨whole, hwhole, hok⟩ := exists_of_bind_ok hok
      obtain ⟨bytes, hbytes, hutf8⟩ := exists_of_bind_ok hwhole
      rw [← textOf_eq_ok_iff.1 hutf8] at hbytes
      refine .read hnone ((source_iff h).2 hbytes.symm) ?_
      obtain rfl := Except.ok.inj hok
      cases trims with
      | true => exact dropFinalLineEnd_eq_iff.1 rfl
      | false => rfl
    · rintro (⟨hmem, _⟩ | ⟨_, hbytes, hdrops⟩)
      · exact absurd hmem (hnone _)
      · rw [← (source_iff h).1 hbytes]
        change (textOf (List.utf8Encode _) >>= _) = _
        rw [textOf_eq_ok_iff.2 rfl]
        cases trims with
        | true => exact congrArg Except.ok (dropFinalLineEnd_eq_iff.2 hdrops)
        | false => exact congrArg Except.ok (Eq.symm hdrops)

end Descent.CommandLine
