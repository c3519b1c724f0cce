import Descent.Pattern.Escape

/-!
# Bracketed classes

A class in brackets lists characters, ranges, escapes, named ASCII classes and further brackets, and
combines such lists by intersection (`&&`), difference (two hyphens) and symmetric difference (two
tildes), from left to right.
-/

namespace Descent.Pattern

/-- The operators between the lists of a class. -/
inductive ClassOp
  | inter | diff | symmDiff
  deriving DecidableEq, Repr

/-- The operator applied to two sets. -/
def ClassOp.apply : ClassOp → CharSet → CharSet → CharSet
  | inter, a, b => a.inter b
  | diff, a, b => a.diff b
  | symmDiff, a, b => a.symmDiff b

/-- An open bracket. -/
structure Bracket where
  /-- Whether the complement is meant. -/
  negated : Bool
  /-- What stands before the last operator, how deep it nests, and the operator. -/
  left : Option (ClassOp × CharSet × Nat)
  /-- What the list has collected since. -/
  set : CharSet
  /-- How many items it has. -/
  count : Nat
  /-- How deep the items nest. -/
  depth : Nat

namespace Bracket

/-- The bracket with one more item in its list. -/
def add (b : Bracket) (s : CharSet) (depth : Nat) : Bracket :=
  { b with set := b.set.union s, count := b.count + 1, depth := max b.depth depth }

/-- How deep the list nests: several items form a level of their own. -/
def listDepth (b : Bracket) : Nat := if b.count ≤ 1 then b.depth else b.depth + 1

/-- The value of everything read so far, and how deep it nests. -/
def value (f : Flags) (b : Bracket) : CharSet × Nat :=
  match b.left with
  | none => (b.set, b.listDepth)
  | some (op, set, depth) => (op.apply (f.fold set) (f.fold b.set), max depth b.listDepth + 1)

/-- The bracket after an operator. -/
def operate (f : Flags) (b : Bracket) (op : ClassOp) : Bracket :=
  let (set, depth) := b.value f
  { b with left := some (op, set, depth), set := .empty, count := 0, depth := 0 }

/-- The hyphens at the start of a class, which stand for themselves. -/
def leadingHyphens (f : Flags) (b : Bracket) (inComment : Bool) :
    List Char → Option (Bracket × List Char)
  | [] => none
  | c :: rest =>
    if inComment then b.leadingHyphens f (c != '\n') rest
    else if f.verbose && isBlank c then b.leadingHyphens f false rest
    else if f.verbose && c == '#' then b.leadingHyphens f true rest
    else if c = '-' then (b.add ⟨[⟨45, 45⟩]⟩ 0).leadingHyphens f false rest
    else some (b, c :: rest)

/-- What follows an opening bracket: a circumflex for the complement, hyphens, and a closing bracket
in the first place, which stands for itself. -/
def opening (f : Flags) (chars : List Char) : Option (Bracket × List Char) := do
  let (negated, chars) := marked '^' (f.skip chars)
  let (b, chars) ← leadingHyphens f ⟨negated, none, .empty, 0, 0⟩ false chars
  match chars with
  | ']' :: rest =>
    if b.count = 0 then
      match f.skip rest with
      | [] => none
      | rest => some (b.add ⟨[⟨93, 93⟩]⟩ 0, rest)
    else some (b, chars)
  | _ => some (b, chars)

end Bracket

/-- The named ASCII classes. -/
def asciiClasses : List (String × List CodeRange) :=
  [("alnum", [⟨48, 57⟩, ⟨65, 90⟩, ⟨97, 122⟩]),
   ("alpha", [⟨65, 90⟩, ⟨97, 122⟩]),
   ("ascii", [⟨0, 127⟩]),
   ("blank", [⟨9, 9⟩, ⟨32, 32⟩]),
   ("cntrl", [⟨0, 31⟩, ⟨127, 127⟩]),
   ("digit", [⟨48, 57⟩]),
   ("graph", [⟨33, 126⟩]),
   ("lower", [⟨97, 122⟩]),
   ("print", [⟨32, 126⟩]),
   ("punct", [⟨33, 47⟩, ⟨58, 64⟩, ⟨91, 96⟩, ⟨123, 126⟩]),
   ("space", [⟨9, 13⟩, ⟨32, 32⟩]),
   ("upper", [⟨65, 90⟩]),
   ("word", [⟨48, 57⟩, ⟨65, 90⟩, ⟨95, 95⟩, ⟨97, 122⟩]),
   ("xdigit", [⟨48, 57⟩, ⟨65, 70⟩, ⟨97, 102⟩])]

/-- A named ASCII class after its opening bracket: whether the complement is meant, the class, and what
follows. Anything else is no such class. -/
def readAsciiClass : List Char → Option (Bool × CharSet × List Char)
  | ':' :: rest =>
    let (negated, rest) := marked '^' rest
    let name := rest.takeWhile (· != ':')
    match rest.dropWhile (· != ':') with
    | ':' :: ']' :: after =>
      (asciiClasses.lookup (String.ofList name)).map fun ranges => (negated, ⟨ranges⟩, after)
    | _ => none
  | _ => none

/-- One character or escape of a class. -/
def readClassAtom (sets : Sets) (f : Flags) : List Char → Option (Atom × List Char)
  | [] => none
  | '\\' :: rest => readEscape sets f rest
  | c :: rest => some (.char c false, rest)

/-- The next character after blanks and after the mark of a comment. -/
def Flags.peek (f : Flags) (chars : List Char) : Option Char :=
  if f.verbose then
    match chars.dropWhile isBlank with
    | '#' :: rest => (rest.dropWhile isBlank).head?
    | rest => rest.head?
  else chars.head?

/-- The set of a character or a class that stands alone. -/
def Flags.alone (f : Flags) : Atom → Option CharSet
  | .char c _ => if f.unicode || c.toNat < 0x80 then some ⟨[.single c]⟩ else none
  | .set s => some s
  | .look _ => none

/-- The range from one character to another. -/
def Flags.range (f : Flags) : Atom → Atom → Option CharSet
  | .char a _, .char b _ =>
    if a ≤ b ∧ (f.unicode ∨ b.toNat < 0x80) then some ⟨[⟨a.toNat, b.toNat⟩]⟩ else none
  | _, _ => none

/-- One character, class or range of a class, and what follows. -/
def readClassItem (sets : Sets) (f : Flags) (chars : List Char) :
    Option (CharSet × List Char) := do
  let (first, rest) ← readClassAtom sets f chars
  match f.skip rest with
  | [] => none
  | '-' :: after =>
    if f.peek after = some ']' ∨ f.peek after = some '-' then
      (f.alone first).map (·, '-' :: after)
    else
      let (last, rest) ← readClassAtom sets f (f.skip after)
      (f.range first last).map (·, rest)
  | rest => (f.alone first).map (·, rest)

/-- Reads on in the innermost open bracket up to the end of the outermost: its set, how deep it nests,
and what follows. Every step takes at least one character, so the length of the text bounds them. -/
def readBrackets (sets : Sets) (f : Flags) : Nat → List Bracket → Bracket → List Char →
    Option (CharSet × Nat × List Char)
  | 0, _, _, _ => none
  | fuel + 1, outer, b, chars =>
    match f.skip chars with
    | [] => none
    | '[' :: rest =>
      match readAsciiClass rest with
      | some (negated, set, rest) =>
        match f.finish negated set with
        | some set => readBrackets sets f fuel outer (b.add set 0) rest
        | none => none
      | none =>
        match Bracket.opening f rest with
        | some (inner, rest) => readBrackets sets f fuel (b :: outer) inner rest
        | none => none
    | ']' :: rest =>
      let (set, depth) := b.value f
      match f.finish b.negated set with
      | none => none
      | some set =>
        match outer with
        | [] => some (set, depth + 1, rest)
        | parent :: outer => readBrackets sets f fuel outer (parent.add set (depth + 1)) rest
    | '&' :: '&' :: rest => readBrackets sets f fuel outer (b.operate f .inter) rest
    | '-' :: '-' :: rest => readBrackets sets f fuel outer (b.operate f .diff) rest
    | '~' :: '~' :: rest => readBrackets sets f fuel outer (b.operate f .symmDiff) rest
    | rest =>
      match readClassItem sets f rest with
      | some (set, rest) => readBrackets sets f fuel outer (b.add set 0) rest
      | none => none

/-- A class after its opening bracket: its set, how deep it nests, and what follows. -/
def readClass (sets : Sets) (f : Flags) (chars : List Char) :
    Option (CharSet × Nat × List Char) := do
  let (b, rest) ← Bracket.opening f chars
  readBrackets sets f (rest.length + 1) [] b rest

end Descent.Pattern
