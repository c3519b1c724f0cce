import Descent.Parser.Run
import Descent.Proofs.Text.Decoding
import Mathlib.Data.Char
import Mathlib.Data.List.Perm.Basic
import Mathlib.Data.List.Sort

/-!
# Names tell how parsers were put together

The name of a parser spells out how it was put together, unless it is a pattern, bears a name of its
own or belongs to a grammar. Each way to put parsers together has its own first characters, the signs
between two parts differ, and quoted text tells where it ends. So the parser can be read back from its
name, up to the order and repetition of characters in a set (`readName_name`), and parsers of the same
name do the same (`name_eq_iff`).
-/

namespace Descent.Parser

open Escaping

/-! ## Sets of characters -/

/-- Of characters that stand in order, each is kept once, and they still stand in order. -/
theorem eraseReps_ordered (c : Char) (rest front : List Char)
    (h : (c :: rest).Pairwise (· ≤ ·)) :
    ∃ kept, List.eraseRepsBy.loop (· == ·) c rest front = front.reverse ++ c :: kept ∧
      (c :: kept).Pairwise (· < ·) ∧ ∀ d, d ∈ c :: kept ↔ d ∈ c :: rest := by
  induction rest generalizing c front with
  | nil => exact ⟨[], by simp [List.eraseRepsBy.loop], by simp, by simp⟩
  | cons d rest ih =>
    obtain ⟨hfirst, hrest⟩ := List.pairwise_cons.1 h
    by_cases hcd : c = d
    · subst hcd
      obtain ⟨kept, hloop, hordered, hsame⟩ := ih c front hrest
      refine ⟨kept, by simpa [List.eraseRepsBy.loop] using hloop, hordered, fun e => ?_⟩
      rw [hsame e]
      simp
    · obtain ⟨kept, hloop, hordered, hsame⟩ := ih d (c :: front) hrest
      have hne : (c == d) = false := beq_eq_false_iff_ne.2 hcd
      refine ⟨d :: kept, by simp [List.eraseRepsBy.loop, hne, hloop], ?_, fun e => ?_⟩
      · refine List.pairwise_cons.2 ⟨fun e he => ?_, hordered⟩
        have hlt : c < d := lt_of_le_of_ne (hfirst d List.mem_cons_self) hcd
        rcases List.mem_cons.1 ((hsame e).1 he) with rfl | he
        · exact hlt
        · exact lt_of_lt_of_le hlt ((List.pairwise_cons.1 hrest).1 e he)
      · rw [List.mem_cons, hsame e, List.mem_cons (b := c)]

/-- The sorted characters are the same characters, in increasing order. -/
theorem sortedChars_spec (chars : List Char) :
    (sortedChars chars).Pairwise (· < ·) ∧ ∀ c, c ∈ sortedChars chars ↔ c ∈ chars := by
  have hsorted : (chars.mergeSort (· ≤ ·)).Pairwise (· ≤ ·) := by
    have htrans : ∀ a b c : Char, decide (a ≤ b) = true → decide (b ≤ c) = true →
        decide (a ≤ c) = true := by
      simp only [decide_eq_true_eq]
      exact fun a b c => le_trans
    have htotal : ∀ a b : Char, (decide (a ≤ b) || decide (b ≤ a)) = true := by
      simp only [Bool.or_eq_true, decide_eq_true_eq]
      exact le_total
    exact (List.pairwise_mergeSort htrans htotal chars).imp of_decide_eq_true
  have hmem (c : Char) : c ∈ chars.mergeSort (· ≤ ·) ↔ c ∈ chars := List.mem_mergeSort
  unfold sortedChars
  generalize chars.mergeSort (· ≤ ·) = sorted at hsorted hmem
  cases sorted with
  | nil => exact ⟨List.Pairwise.nil, hmem⟩
  | cons c rest =>
    obtain ⟨kept, hloop, hordered, hsame⟩ := eraseReps_ordered c rest [] hsorted
    have heq : (c :: rest).eraseReps = c :: kept := hloop
    rw [heq]
    exact ⟨hordered, fun d => (hsame d).trans (hmem d)⟩

/-- The same characters are sorted in the same way. -/
theorem sortedChars_congr {chars chars' : List Char} (h : ∀ c, c ∈ chars ↔ c ∈ chars') :
    sortedChars chars = sortedChars chars' := by
  obtain ⟨hordered, hmem⟩ := sortedChars_spec chars
  obtain ⟨hordered', hmem'⟩ := sortedChars_spec chars'
  have hperm : (sortedChars chars).Perm (sortedChars chars') := by
    refine (List.perm_ext_iff_of_nodup (hordered.imp ne_of_lt) (hordered'.imp ne_of_lt)).2 ?_
    exact fun c => (hmem c).trans ((h c).trans (hmem' c).symm)
  exact hperm.eq_of_pairwise (fun a b _ _ hab hba => absurd hba (lt_asymm hab)) hordered hordered'

/-! ## Trees -/

/-- The parser is put together from primitives, of which none is a pattern, and bears no other name
than that. -/
def SpelledOut : Parser → Prop
  | eof | empty | whitespace | anyLetter | anyNumber | one _ | literal _ | anyChar _
  | anyCharBut _ => True
  | many0 body | many1 body | exactly _ body => body.SpelledOut
  | between inner opening closing => inner.SpelledOut ∧ opening.SpelledOut ∧ closing.SpelledOut
  | orElse a b | andThen a b | thenOptional a b | optionalThen a b | thenIgnore a b
  | ignoreThen a b => a.SpelledOut ∧ b.SpelledOut
  | _ => False

/-- Two parsers are put together in the same way; only the characters of a set may come in another
order, or more than once. -/
inductive SameTree : Parser → Parser → Prop
  | eof : SameTree eof eof
  | empty : SameTree empty empty
  | whitespace : SameTree whitespace whitespace
  | anyLetter : SameTree anyLetter anyLetter
  | anyNumber : SameTree anyNumber anyNumber
  | one (c : Char) : SameTree (one c) (one c)
  | literal (text : List Char) : SameTree (literal text) (literal text)
  | anyChar {chars chars'} (h : ∀ c, c ∈ chars ↔ c ∈ chars') :
    SameTree (anyChar chars) (anyChar chars')
  | anyCharBut {chars chars'} (h : ∀ c, c ∈ chars ↔ c ∈ chars') :
    SameTree (anyCharBut chars) (anyCharBut chars')
  | many0 {body body'} (h : SameTree body body') : SameTree (many0 body) (many0 body')
  | many1 {body body'} (h : SameTree body body') : SameTree (many1 body) (many1 body')
  | exactly {body body'} (count : Nat) (h : SameTree body body') :
    SameTree (exactly count body) (exactly count body')
  | between {inner inner' opening opening' closing closing'} (hinner : SameTree inner inner')
    (hopening : SameTree opening opening') (hclosing : SameTree closing closing') :
    SameTree (between inner opening closing) (between inner' opening' closing')
  | orElse {a a' b b'} (ha : SameTree a a') (hb : SameTree b b') :
    SameTree (orElse a b) (orElse a' b')
  | andThen {a a' b b'} (ha : SameTree a a') (hb : SameTree b b') :
    SameTree (andThen a b) (andThen a' b')
  | thenOptional {a a' b b'} (ha : SameTree a a') (hb : SameTree b b') :
    SameTree (thenOptional a b) (thenOptional a' b')
  | optionalThen {a a' b b'} (ha : SameTree a a') (hb : SameTree b b') :
    SameTree (optionalThen a b) (optionalThen a' b')
  | thenIgnore {a a' b b'} (ha : SameTree a a') (hb : SameTree b b') :
    SameTree (thenIgnore a b) (thenIgnore a' b')
  | ignoreThen {a a' b b'} (ha : SameTree a a') (hb : SameTree b b') :
    SameTree (ignoreThen a b) (ignoreThen a' b')

variable {p q r : Parser}

namespace SameTree

theorem symm (h : SameTree p q) : SameTree q p := by
  induction h with
  | anyChar h => exact .anyChar fun c => (h c).symm
  | anyCharBut h => exact .anyCharBut fun c => (h c).symm
  | many0 _ ih => exact .many0 ih
  | many1 _ ih => exact .many1 ih
  | exactly count _ ih => exact .exactly count ih
  | between _ _ _ ihInner ihOpening ihClosing => exact .between ihInner ihOpening ihClosing
  | _ => constructor <;> assumption

theorem trans (h : SameTree p q) (h' : SameTree q r) : SameTree p r := by
  induction h generalizing r with
  | anyChar h =>
    cases h' with
    | anyChar h' => exact .anyChar fun c => (h c).trans (h' c)
  | anyCharBut h =>
    cases h' with
    | anyCharBut h' => exact .anyCharBut fun c => (h c).trans (h' c)
  | many0 _ ih =>
    cases h' with
    | many0 h' => exact .many0 (ih h')
  | many1 _ ih =>
    cases h' with
    | many1 h' => exact .many1 (ih h')
  | exactly count _ ih =>
    cases h' with
    | exactly _ h' => exact .exactly count (ih h')
  | between _ _ _ ihInner ihOpening ihClosing =>
    cases h' with
    | between hinner hopening hclosing =>
      exact .between (ihInner hinner) (ihOpening hopening) (ihClosing hclosing)
  | orElse _ _ iha ihb =>
    cases h' with
    | orElse ha hb => exact .orElse (iha ha) (ihb hb)
  | andThen _ _ iha ihb =>
    cases h' with
    | andThen ha hb => exact .andThen (iha ha) (ihb hb)
  | thenOptional _ _ iha ihb =>
    cases h' with
    | thenOptional ha hb => exact .thenOptional (iha ha) (ihb hb)
  | optionalThen _ _ iha ihb =>
    cases h' with
    | optionalThen ha hb => exact .optionalThen (iha ha) (ihb hb)
  | thenIgnore _ _ iha ihb =>
    cases h' with
    | thenIgnore ha hb => exact .thenIgnore (iha ha) (ihb hb)
  | ignoreThen _ _ iha ihb =>
    cases h' with
    | ignoreThen ha hb => exact .ignoreThen (iha ha) (ihb hb)
  | _ => exact h'

/-- Parsers that are put together in the same way have the same name. -/
theorem name_eq (h : SameTree p q) : p.name = q.name := by
  induction h with
  | anyChar h | anyCharBut h => simp only [name, sortedChars_congr h]
  | _ => simp only [name, *]

/-- Parsers that are put together in the same way mean the same. -/
theorem meaning_eq (h : SameTree p q) (limit : Nat) (call : RuleId → Step) :
    p.meaning limit call = q.meaning limit call := by
  induction h with
  | @anyChar chars chars' h =>
    have hsame : (fun c => chars.contains c) = fun c => chars'.contains c := by
      funext c
      simp [List.contains_eq_mem, h c]
    funext t
    simp only [meaning, hsame]
  | @anyCharBut chars chars' h =>
    have hsame : (fun c => !chars.contains c) = fun c => !chars'.contains c := by
      funext c
      simp [List.contains_eq_mem, h c]
    funext t
    simp only [meaning, hsame]
  | _ =>
    funext t
    simp only [meaning, *]

/-- Parsers that are put together in the same way do the same. -/
theorem run_eq (h : SameTree p q) (s : Store) (t : Text) : s.run p t = s.run q t := by
  unfold Store.run
  cases s.depthFor t with
  | zero => exact congrFun (h.meaning_eq 0 _) t
  | succ depth => exact congrFun (h.meaning_eq (depth + 1) _) t

end SameTree

/-- The parser with each set of characters in increasing order. -/
def canonical : Parser → Parser
  | anyChar chars => anyChar (sortedChars chars)
  | anyCharBut chars => anyCharBut (sortedChars chars)
  | many0 body => many0 body.canonical
  | many1 body => many1 body.canonical
  | exactly count body => exactly count body.canonical
  | between inner opening closing => between inner.canonical opening.canonical closing.canonical
  | orElse a b => orElse a.canonical b.canonical
  | andThen a b => andThen a.canonical b.canonical
  | thenOptional a b => thenOptional a.canonical b.canonical
  | optionalThen a b => optionalThen a.canonical b.canonical
  | thenIgnore a b => thenIgnore a.canonical b.canonical
  | ignoreThen a b => ignoreThen a.canonical b.canonical
  | p => p

/-- Putting the sets in order changes nothing else. -/
theorem sameTree_canonical (hp : p.SpelledOut) : SameTree p p.canonical := by
  induction p with
  | anyChar chars => exact .anyChar fun c => ((sortedChars_spec chars).2 c).symm
  | anyCharBut chars => exact .anyCharBut fun c => ((sortedChars_spec chars).2 c).symm
  | many0 body ih => exact .many0 (ih hp)
  | many1 body ih => exact .many1 (ih hp)
  | exactly count body ih => exact .exactly count (ih hp)
  | between _ _ _ ihInner ihOpening ihClosing =>
    exact .between (ihInner hp.1) (ihOpening hp.2.1) (ihClosing hp.2.2)
  | orElse _ _ iha ihb => exact .orElse (iha hp.1) (ihb hp.2)
  | andThen _ _ iha ihb => exact .andThen (iha hp.1) (ihb hp.2)
  | thenOptional _ _ iha ihb => exact .thenOptional (iha hp.1) (ihb hp.2)
  | optionalThen _ _ iha ihb => exact .optionalThen (iha hp.1) (ihb hp.2)
  | thenIgnore _ _ iha ihb => exact .thenIgnore (iha hp.1) (ihb hp.2)
  | ignoreThen _ _ iha ihb => exact .ignoreThen (iha hp.1) (ihb hp.2)
  | pattern | named | handmade | guarded | reference | unresolved | entry => exact hp.elim
  | _ => constructor

/-! ## Reading names -/

/-- With what a name begins. -/
inductive Lead
  | eof | empty | whitespace | anyLetter | anyNumber | one | literal | anyChar | anyCharBut
  | many0 | many1 | exactly | between | group

/-- The characters at the beginning. -/
def Lead.text : Lead → String
  | eof => "eof"
  | empty => "empty"
  | whitespace => "whitespace"
  | anyLetter => "anyLetter"
  | anyNumber => "anyNumber"
  | one => "\x27"
  | literal => "\""
  | anyChar => "anyChar\""
  | anyCharBut => "anyCharBut\""
  | many0 => "many0("
  | many1 => "many1("
  | exactly => "exactly("
  | between => "between("
  | group => "("

/-- All beginnings. -/
def Lead.all : List Lead :=
  [eof, empty, whitespace, anyLetter, anyNumber, one, literal, anyChar, anyCharBut, many0, many1,
    exactly, between, group]

/-- What follows a mark. -/
def skip? (mark : String) (chars : List Char) : Option (List Char) := chars.dropPrefix? mark.toList

/-- The beginning of a name, and what follows it. -/
def readLead? (chars : List Char) : Option (Lead × List Char) :=
  Lead.all.findSome? fun lead => (skip? lead.text chars).map fun rest => (lead, rest)

/-- The combination that stands for a sign between two names, and what follows the sign. -/
def readSign? : List Char → Option ((Parser → Parser → Parser) × List Char)
  | ' ' :: '|' :: ' ' :: rest => some (orElse, rest)
  | ' ' :: '>' :: '>' :: ' ' :: rest => some (andThen, rest)
  | ' ' :: '>' :: ' ' :: rest => some (thenOptional, rest)
  | ' ' :: '<' :: ' ' :: rest => some (optionalThen, rest)
  | ' ' :: '>' :: '=' :: ' ' :: rest => some (thenIgnore, rest)
  | ' ' :: '<' :: '=' :: ' ' :: rest => some (ignoreThen, rest)
  | _ => none

/-- A number in digits, and what follows it. -/
def readCount (chars : List Char) : Nat × List Char :=
  (Nat.ofDigitChars 10 (chars.takeWhile (·.isDigit)) 0, chars.dropWhile (·.isDigit))

/-- The parser whose name begins in this way, and what follows the name, if `read` reads the names of
its parts. -/
def readRest (read : List Char → Option (Parser × List Char)) (rest : List Char) :
    Lead → Option (Parser × List Char)
  | .eof => some (eof, rest)
  | .empty => some (empty, rest)
  | .whitespace => some (whitespace, rest)
  | .anyLetter => some (anyLetter, rest)
  | .anyNumber => some (anyNumber, rest)
  | .one => do
    let (c, rest) ← Quoted.readChar rest
    return (one c, ← skip? "\x27" rest)
  | .literal => (inside Quoted.readChar '"' rest).map fun (text, rest) => (literal text, rest)
  | .anyChar => (inside Quoted.readChar '"' rest).map fun (chars, rest) => (anyChar chars, rest)
  | .anyCharBut =>
    (inside Quoted.readChar '"' rest).map fun (chars, rest) => (anyCharBut chars, rest)
  | .many0 => do
    let (body, rest) ← read rest
    return (many0 body, ← skip? ")" rest)
  | .many1 => do
    let (body, rest) ← read rest
    return (many1 body, ← skip? ")" rest)
  | .exactly => do
    let (count, rest) := readCount rest
    let (body, rest) ← read (← skip? ", " rest)
    return (exactly count body, ← skip? ")" rest)
  | .between => do
    let (inner, rest) ← read rest
    let (opening, rest) ← read (← skip? ", " rest)
    let (closing, rest) ← read (← skip? ", " rest)
    return (between inner opening closing, ← skip? ")" rest)
  | .group => do
    let (a, rest) ← read rest
    let (combine, rest) ← readSign? rest
    let (b, rest) ← read rest
    return (combine a b, ← skip? ")" rest)

/-- The parser whose name stands at the front of a text, and what follows the name. The fuel is more
than the height of the parser. -/
def readName : Nat → List Char → Option (Parser × List Char)
  | 0, _ => none
  | fuel + 1, chars => do
    let (lead, rest) ← readLead? chars
    readRest (readName fuel) rest lead

/-- How many parsers stand one inside the other. -/
def height : Parser → Nat
  | many0 body | many1 body | exactly _ body => body.height + 1
  | between inner opening closing => max inner.height (max opening.height closing.height) + 1
  | orElse a b | andThen a b | thenOptional a b | optionalThen a b | thenIgnore a b
  | ignoreThen a b => max a.height b.height + 1
  | _ => 0

/-- A mark is skipped. -/
@[simp] theorem skip?_append (mark : String) (rest : List Char) :
    skip? mark (mark.toList ++ rest) = some rest :=
  List.dropPrefix?_append_of_beq rest (beq_self_eq_true _)

/-- No beginning starts another one, so it is told by its characters. -/
theorem readLead?_text (lead : Lead) (rest : List Char) :
    readLead? (lead.text.toList ++ rest) = some (lead, rest) := by
  cases lead <;> simp [readLead?, Lead.all, Lead.text, skip?, List.dropPrefix?]

/-- The digits of a number end where no digit follows. -/
theorem readCount_repr (n : Nat) {rest : List Char} (hrest : ∀ c ∈ rest.head?, c.isDigit = false) :
    readCount (n.repr.toList ++ rest) = (n, rest) := by
  have hdigits : ∀ c ∈ Nat.toDigits 10 n, c.isDigit = true := fun c hc =>
    Nat.isDigit_of_mem_toDigits (by decide) (by decide) hc
  have hend : rest.takeWhile (·.isDigit) = [] ∧ rest.dropWhile (·.isDigit) = rest := by
    cases rest with
    | nil => exact ⟨rfl, rfl⟩
    | cons c rest => simp [hrest c rfl]
  rw [Nat.toList_repr, readCount, List.takeWhile_append_of_pos hdigits,
    List.dropWhile_append_of_pos hdigits, hend.1, hend.2, List.append_nil,
    Nat.ofDigitChars_ten_toDigits]

/-- The beginning says how to go on. -/
theorem readName_lead (fuel : Nat) (lead : Lead) (rest : List Char) :
    readName (fuel + 1) (lead.text.toList ++ rest) = readRest (readName fuel) rest lead := by
  rw [readName, readLead?_text]
  rfl

/-- Characters that are quoted after the beginning are read back. -/
theorem readName_quoted {fuel : Nat} {name : String} {chars : List Char}
    {build : List Char → Parser} (lead : Lead)
    (hname : name.toList = lead.text.toList ++ (chars.flatMap (Quoted.escape '"') ++ ['"']))
    (hrest : ∀ rest, readRest (readName fuel) rest lead =
      (inside Quoted.readChar '"' rest).map fun (chars, rest) => (build chars, rest))
    (rest : List Char) : readName (fuel + 1) (name.toList ++ rest) = some (build chars, rest) := by
  have hsplit : name.toList ++ rest =
      lead.text.toList ++ (chars.flatMap (Quoted.escape '"') ++ '"' :: rest) := by
    simp [hname]
  rw [hsplit, readName_lead, hrest, Quoted.inside_text]
  rfl

/-- A parser that is put inside another one is read back, and the other with it. -/
theorem readName_body {fuel : Nat} {body : Parser} {build : Parser → Parser} (lead : Lead)
    (hrest : ∀ rest, readRest (readName fuel) rest lead = do
      let (body, rest) ← readName fuel rest
      return (build body, ← skip? ")" rest))
    (hbody : ∀ rest, readName fuel (body.name.toList ++ rest) = some (body.canonical, rest))
    (rest : List Char) :
    readName (fuel + 1) ((lead.text ++ body.name ++ ")").toList ++ rest) =
      some (build body.canonical, rest) := by
  have hname : (lead.text ++ body.name ++ ")").toList ++ rest =
      lead.text.toList ++ (body.name.toList ++ (")".toList ++ rest)) := by
    simp only [String.toList_append, List.append_assoc]
  rw [hname, readName_lead, hrest, hbody]
  simp only [Option.bind_eq_bind, Option.bind_some, skip?_append]
  rfl

/-- A combination of two is read back when its parts are. -/
theorem readName_group {fuel : Nat} {a b : Parser} {sign : String}
    {combine : Parser → Parser → Parser}
    (hsign : ∀ rest, readSign? (sign.toList ++ rest) = some (combine, rest))
    (ha : ∀ rest, readName fuel (a.name.toList ++ rest) = some (a.canonical, rest))
    (hb : ∀ rest, readName fuel (b.name.toList ++ rest) = some (b.canonical, rest))
    (rest : List Char) :
    readName (fuel + 1) (("(" ++ a.name ++ sign ++ b.name ++ ")").toList ++ rest) =
      some (combine a.canonical b.canonical, rest) := by
  have hname : ("(" ++ a.name ++ sign ++ b.name ++ ")").toList ++ rest = Lead.group.text.toList ++
      (a.name.toList ++ (sign.toList ++ (b.name.toList ++ (")".toList ++ rest)))) := by
    simp only [String.toList_append, List.append_assoc, Lead.text]
  rw [hname, readName_lead]
  simp only [readRest, Option.bind_eq_bind, Option.bind_some, ha, hsign, hb, skip?_append]
  rfl

/-- A parser that is spelled out is read back from its name, whatever follows, with its sets of
characters in order. -/
theorem readName_name (hp : p.SpelledOut) {fuel : Nat} (hfuel : p.height < fuel)
    (rest : List Char) : readName fuel (p.name.toList ++ rest) = some (p.canonical, rest) := by
  induction fuel generalizing p rest with
  | zero => cases hfuel
  | succ fuel ih =>
    cases p with
    | eof => exact readName_lead fuel .eof rest
    | empty => exact readName_lead fuel .empty rest
    | whitespace => exact readName_lead fuel .whitespace rest
    | anyLetter => exact readName_lead fuel .anyLetter rest
    | anyNumber => exact readName_lead fuel .anyNumber rest
    | one c =>
      have hname : (one c).name.toList ++ rest =
          Lead.one.text.toList ++ (Quoted.escape '\x27' c ++ ("\x27".toList ++ rest)) := by
        simp [name, Lead.text, Quoted.char]
      have hread := (Quoted.inverts_readChar (.inr rfl)).reads c ("\x27".toList ++ rest)
      rw [hname, readName_lead]
      simp only [readRest, Option.bind_eq_bind, Option.bind_some, hread, skip?_append]
      rfl
    | literal text =>
      exact readName_quoted .literal (by simp [name, Lead.text, Quoted.text]) (fun _ => rfl) rest
    | anyChar chars =>
      exact readName_quoted .anyChar (by simp [name, Lead.text, Quoted.text]) (fun _ => rfl) rest
    | anyCharBut chars =>
      exact readName_quoted .anyCharBut (by simp [name, Lead.text, Quoted.text]) (fun _ => rfl) rest
    | many0 body =>
      have hheight : body.height < fuel := Nat.lt_of_succ_lt_succ hfuel
      exact readName_body .many0 (fun _ => rfl) (ih (p := body) hp hheight) rest
    | many1 body =>
      have hheight : body.height < fuel := Nat.lt_of_succ_lt_succ hfuel
      exact readName_body .many1 (fun _ => rfl) (ih (p := body) hp hheight) rest
    | exactly count body =>
      have hheight : body.height < fuel := Nat.lt_of_succ_lt_succ hfuel
      have hname : (exactly count body).name.toList ++ rest = Lead.exactly.text.toList ++
          (count.repr.toList ++ (", ".toList ++ (body.name.toList ++ (")".toList ++ rest)))) := by
        simp only [name, String.toList_append, List.append_assoc, Lead.text]
      have hcomma : ∀ c ∈ (", ".toList ++ (body.name.toList ++ (")".toList ++ rest))).head?,
          c.isDigit = false := by simp
      rw [hname, readName_lead, readRest, readCount_repr count hcomma]
      simp only [Option.bind_eq_bind, Option.bind_some, skip?_append,
        ih (p := body) hp hheight]
      rfl
    | between inner opening closing =>
      have hheight : inner.height < fuel ∧ opening.height < fuel ∧ closing.height < fuel := by
        simp only [height] at hfuel
        omega
      have hname : (between inner opening closing).name.toList ++ rest =
          Lead.between.text.toList ++ (inner.name.toList ++ (", ".toList ++
            (opening.name.toList ++ (", ".toList ++
              (closing.name.toList ++ (")".toList ++ rest)))))) := by
        simp only [name, String.toList_append, List.append_assoc, Lead.text]
      rw [hname, readName_lead, readRest, ih hp.1 hheight.1]
      simp only [Option.bind_eq_bind, Option.bind_some, ih hp.2.1 hheight.2.1,
        ih hp.2.2 hheight.2.2, skip?_append]
      rfl
    | orElse a b | andThen a b | thenOptional a b | optionalThen a b | thenIgnore a b
    | ignoreThen a b =>
      have hheight : a.height < fuel ∧ b.height < fuel := by
        simp only [height] at hfuel
        omega
      exact readName_group (fun _ => rfl) (ih hp.1 hheight.1) (ih hp.2 hheight.2) rest
    | pattern | named | handmade | guarded | reference | unresolved | entry => exact hp.elim

/-- Among parsers that are spelled out, those of the same name are put together in the same way, and
so they do the same wherever they are run. -/
theorem name_eq_iff (hp : p.SpelledOut) (hq : q.SpelledOut) :
    (p.name = q.name ↔ SameTree p q) ∧
      (p.name = q.name → ∀ (s : Store) (t : Text), s.run p t = s.run q t) := by
  have htree (h : p.name = q.name) : SameTree p q := by
    let fuel := p.height + q.height + 1
    have hread := readName_name hp (show p.height < fuel by omega) []
    rw [h, readName_name hq (show q.height < fuel by omega) []] at hread
    have hsame : q.canonical = p.canonical := congrArg Prod.fst (Option.some.inj hread)
    have hpq := sameTree_canonical hp
    rw [← hsame] at hpq
    exact hpq.trans (sameTree_canonical hq).symm
  exact ⟨⟨htree, fun h => h.name_eq⟩, fun h s t => (htree h).run_eq s t⟩

/-- The order of the characters of a set and their repetition do not show in the name, and do not
matter. -/
theorem name_eq_iff_anyChar :
    let p := andThen (many1 (anyChar ['b', 'a', 'b'])) (one ',')
    let q := andThen (many1 (anyChar ['a', 'b'])) (one ',')
    p.name = q.name ∧ ∀ (s : Store) (t : Text), s.run p t = s.run q t := by
  intro p q
  have hsame : ∀ c, c ∈ ['b', 'a', 'b'] ↔ c ∈ ['a', 'b'] := by grind
  have htree : SameTree p q := .andThen (.many1 (.anyChar hsame)) (.one ',')
  obtain ⟨hiff, hrun⟩ := name_eq_iff (p := p) (q := q) ⟨trivial, trivial⟩ ⟨trivial, trivial⟩
  exact ⟨hiff.2 htree, hrun (hiff.2 htree)⟩

end Descent.Parser
