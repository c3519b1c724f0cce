import Descent.Pattern.Bracket

/-!
# Reading patterns

A pattern is read from left to right. Alternatives and the parts of each stand on a stack with one
frame per open group, together with the flags that come back into force when the group ends.
-/

namespace Descent.Pattern

/-- A part of a pattern. -/
structure Part where
  node : Node
  /-- How deep it nests. -/
  depth : Nat
  /-- Whether a repetition can follow; after flags it cannot. -/
  repeatable : Bool

/-- The alternatives and parts read so far in one group, last ones first. -/
structure Branches where
  earlier : List Part
  parts : List Part

/-- Nothing read yet. -/
def Branches.none : Branches := ⟨[], []⟩

/-- The parts, last one first, as one part. -/
def inSequence : List Part → Part
  | [] => ⟨.empty, 0, true⟩
  | [p] => p
  | p :: ps =>
    ps.foldl (fun back front =>
      ⟨.seq front.node back.node, max (front.depth + 1) back.depth, true⟩)
      ⟨p.node, p.depth + 1, true⟩

/-- The alternatives, last one first, as one part. -/
def asAlternatives : List Part → Part
  | [] => ⟨.empty, 0, true⟩
  | [p] => p
  | p :: ps =>
    ps.foldl (fun back front =>
      ⟨.alt front.node back.node, max (front.depth + 1) back.depth, true⟩)
      ⟨p.node, p.depth + 1, true⟩

/-- Everything read in a group, as one part. -/
def Branches.close (b : Branches) : Part := asAlternatives (inSequence b.parts :: b.earlier)

/-- What has been read of a pattern. -/
structure ReadState where
  flags : Flags
  /-- The innermost open group. -/
  current : Branches
  /-- The groups around it, innermost first, with the flags that were in force before each. -/
  outer : List (Flags × Branches)
  /-- The names of the groups so far. -/
  names : List (List Char)

/-- The state before the first character. -/
def ReadState.initial : ReadState := ⟨.initial, .none, [], []⟩

namespace ReadState

/-- The state with one more part. -/
def push (s : ReadState) (node : Node) (depth : Nat) : ReadState :=
  { s with current := { s.current with parts := ⟨node, depth, true⟩ :: s.current.parts } }

/-- The state after the start of a group in which the given flags hold. -/
def openGroup (s : ReadState) (flags : Flags) : ReadState :=
  { s with flags := flags, current := .none, outer := (s.flags, s.current) :: s.outer }

/-- The state after the end of a group. -/
def closeGroup (s : ReadState) : Option ReadState :=
  match s.outer with
  | [] => none
  | (flags, current) :: outer =>
    let group := s.current.close
    let s := { s with flags := flags, current := current, outer := outer }
    some (s.push group.node (group.depth + 1))

/-- The state after a bar. -/
def bar (s : ReadState) : ReadState :=
  { s with current := ⟨inSequence s.current.parts :: s.current.earlier, []⟩ }

/-- The state after a repetition of the last part. -/
def loopLast (s : ReadState) (least : Nat) (most : Option Nat) (greedy : Bool) :
    Option ReadState :=
  match s.current.parts with
  | [] => none
  | p :: ps =>
    if p.repeatable then
      let node := Node.repetition least most (greedy != s.flags.swapGreed) p.node
      some { s with current := { s.current with parts := ⟨node, p.depth + 1, true⟩ :: ps } }
    else none

/-- The state after a repetition of the last part, and what follows. A question mark makes it lazy. -/
def readLoop (s : ReadState) (least : Nat) (most : Option Nat) (chars : List Char) :
    Option (ReadState × List Char) :=
  let (isLazy, rest) := marked '?' chars
  (s.loopLast least most !isLazy).map (·, rest)

/-- The state after flags that hold from here on. -/
def setFlags (s : ReadState) (flags : Flags) : ReadState :=
  { s with
    flags := flags
    current := { s.current with parts := ⟨.empty, 0, false⟩ :: s.current.parts } }

end ReadState

/-- Whether a character can stand in the name of a group, in the first place or later. -/
def isNameChar (first : Bool) (c : Char) : Bool :=
  c == '_' || Unicode.alphabetic.contains c ||
    (!first && (c == '.' || c == '[' || c == ']' ||
      (Unicode.inCategories ["Nd", "Nl", "No"]).contains c))

/-- The name of a group, which ends with an angle bracket, and what follows. -/
def readGroupName (name : List Char) : List Char → Option (List Char × List Char)
  | [] => none
  | c :: rest =>
    if c = '>' then if name.isEmpty then none else some (name.reverse, rest)
    else if isNameChar name.isEmpty c then readGroupName (c :: name) rest
    else none

/-- What an opening parenthesis introduces. -/
inductive GroupStart
  /-- A condition on what stands before or after a place. Patterns have no such conditions. -/
  | condition
  /-- A group with a name. -/
  | named
  /-- Flags, for a group or for what follows. -/
  | flags
  /-- A group. -/
  | plain
  deriving DecidableEq, Repr

/-- What an opening parenthesis introduces, by what follows it, and what stands after that. -/
def groupStart : List Char → GroupStart × List Char
  | '?' :: '=' :: rest => (.condition, rest)
  | '?' :: '!' :: rest => (.condition, rest)
  | '?' :: '<' :: '=' :: rest => (.condition, rest)
  | '?' :: '<' :: '!' :: rest => (.condition, rest)
  | '?' :: 'P' :: '<' :: rest => (.named, rest)
  | '?' :: '<' :: rest => (.named, rest)
  | '?' :: rest => (.flags, rest)
  | rest => (.plain, rest)

/-- What follows an opening parenthesis: the start of a group, or flags. No name is given twice. -/
def readGroup (s : ReadState) (chars : List Char) : Option (ReadState × List Char) :=
  match groupStart (s.flags.skip chars) with
  | (.condition, _) => none
  | (.named, rest) => do
    let (name, rest) ← readGroupName [] rest
    if s.names.contains name then none
    else some ({ s.openGroup s.flags with names := name :: s.names }, rest)
  | (.flags, rest) => do
    let (flags, seen, last, rest) ← readFlags s.flags [] rest
    if last = ':' then some (s.openGroup flags, rest)
    else if seen.isEmpty then none
    else some (s.setFlags flags, rest)
  | (.plain, rest) => some (s.openGroup s.flags, rest)

/-- A count in a repetition, and what follows. Blanks around it are left out. -/
def readCount (f : Flags) (chars : List Char) : Option (Nat × List Char) :=
  let (digits, rest) := f.span Char.isDigit false (chars.dropWhile isBlank)
  let n := digits.foldl (fun n d => n * 10 + (d.toNat - '0'.toNat)) 0
  if digits.isEmpty ∨ 0x100000000 ≤ n then none else some (n, rest.dropWhile isBlank)

/-- What follows the least count in a repetition: the greatest count, if there is one, after a comma,
or else the least is the greatest. -/
def readMost (f : Flags) (least : Nat) : List Char → Option (Option Nat × List Char)
  | ',' :: rest =>
    match f.skip rest with
    | '\x7d' :: rest => some (none, '\x7d' :: rest)
    | rest => (readCount f rest).map fun (most, rest) => (some most, rest)
  | rest => some (some least, rest)

/-- What follows the opening brace of a repetition: the least and the greatest count. -/
def readCounts (f : Flags) (chars : List Char) : Option (Nat × Option Nat × List Char) := do
  let (least, rest) ← readCount f (f.skip chars)
  let (most, rest) ← readMost f least rest
  match rest with
  | '\x7d' :: rest => if most.all (least ≤ ·) then some (least, most, rest) else none
  | _ => none

/-- The part that one literal character stands for. -/
def literalNode (f : Flags) (c : Char) : Node :=
  if f.unicode || c.isAlpha then .set (f.fold ⟨[.single c]⟩) else .set ⟨[.single c]⟩

/-- The set that the dot stands for. -/
def dotSet (f : Flags) : Option CharSet :=
  if !f.unicode then none
  else if f.dotAll then some .all
  else if f.crlf then some (CharSet.ofChars ['\n', '\r']).complement
  else some (CharSet.ofChars ['\n']).complement

/-- The state after an escape. A byte beyond ASCII has no place where classes do not reach beyond
ASCII. -/
def ReadState.pushAtom (s : ReadState) : Atom → Option ReadState
  | .char c byte =>
    if byte && !s.flags.unicode && 0x80 ≤ c.toNat then none
    else some (s.push (literalNode s.flags c) 0)
  | .set set => some (s.push (.set set) 0)
  | .look l => some (s.push (.look l) 0)

/-- Reads one piece of a pattern, from its first character on. -/
def readPiece (sets : Sets) (s : ReadState) (c : Char) (rest : List Char) :
    Option (ReadState × List Char) :=
  let f := s.flags
  if c = '(' then readGroup s rest
  else if c = ')' then s.closeGroup.map (·, rest)
  else if c = '|' then some (s.bar, rest)
  else if c = '[' then do
    let (set, depth, rest) ← readClass sets f rest
    some (s.push (.set set) depth, rest)
  else if c = '?' then s.readLoop 0 (some 1) rest
  else if c = '*' then s.readLoop 0 none rest
  else if c = '+' then s.readLoop 1 none rest
  else if c = '\x7b' then do
    let (least, most, rest) ← readCounts f rest
    s.readLoop least most (f.skip rest)
  else if c = '\\' then do
    let (atom, rest) ← readEscape sets f rest
    let s ← s.pushAtom atom
    some (s, rest)
  else if c = '.' then (dotSet f).map fun set => (s.push (.set set) 0, rest)
  else if c = '^' then
    some (s.push (.look (if f.multiLine then .lineStart f.crlf else .textStart)) 0, rest)
  else if c = '$' then
    some (s.push (.look (if f.multiLine then .lineEnd f.crlf else .textEnd)) 0, rest)
  else some (s.push (literalNode f c) 0, rest)

/-- Reads the rest of a pattern. Every piece takes at least one character, so the length of the text
bounds their number. -/
def readPieces (sets : Sets) : Nat → ReadState → List Char → Option ReadState
  | 0, _, _ => none
  | fuel + 1, s, chars =>
    match s.flags.skip chars with
    | [] => some s
    | c :: rest =>
      match readPiece sets s c rest with
      | some (s, rest) => readPieces sets fuel s rest
      | none => none

/-- What a text writes as a whole, however deep and heavy it is. Every group must have ended. -/
def Part.read? (sets : Sets) (source : List Char) : Option Part := do
  let s ← readPieces sets (source.length + 1) .initial source
  if s.outer.isEmpty then some s.current.close else none

end Descent.Pattern
