import Descent.Pattern.Node

/-!
# Programs

A pattern is written out as a list of instructions. A run goes through them from one to the next, takes
characters on the way, and has matched when it gets past the last one. A repetition with a greatest
count is written out as so many copies, and one without it is a loop. What can match nothing is
repeated once and then again, all of which may be left out, so that each round goes through one and the
same fork.
-/

namespace Descent.Pattern

/-- An instruction. -/
inductive Inst
  /-- Takes the next character, if it belongs to the set. -/
  | take (s : CharSet)
  /-- Goes on if the condition holds. -/
  | check (l : Look)
  /-- Goes on at either of two instructions, rather at the first. -/
  | fork (first second : Nat)
  /-- Goes on at another instruction. -/
  | jump (target : Nat)
  deriving Inhabited, Repr

namespace Inst

/-- A way into something that may be left out, and a way past it. Greed tells which is preferred. -/
def split (greedy : Bool) (into past : Nat) : Inst :=
  if greedy then fork into past else fork past into

/-- The instructions and places to go on from, in order of preference. -/
def next (address : Nat) (c : Cursor) : Inst → List (Nat × Cursor)
  | take s => ((c.takeIn s).map (address + 1, ·)).toList
  | check l => if l.holds c then [(address + 1, c)] else []
  | fork first second => [(first, c), (second, c)]
  | jump target => [(target, c)]

end Inst

/-- Instructions that can be put at any address. -/
abbrev Code := Nat → List Inst

namespace Code

/-- Copies of a code of the given size, one after another. -/
def copies (code : Code) (size count : Nat) : Code := fun start =>
  (List.range count).flatMap fun i => code (start + i * size)

/-- Copies each of which may be left out, with all that follow. -/
def optionals (code : Code) (size : Nat) (greedy : Bool) (count : Nat) : Code := fun start =>
  copies (fun here => .split greedy (here + 1) (start + count * (size + 1)) :: code (here + 1))
    (size + 1) count start

/-- One copy, and then again as often as wanted. -/
def repeated (code : Code) (size : Nat) (greedy : Bool) : Code := fun start =>
  code start ++ [.split greedy start (start + size + 1)]

/-- A copy that may be left out, and from which the way leads back. -/
def star (code : Code) (size : Nat) (greedy : Bool) : Code := fun start =>
  .split greedy (start + 1) (start + size + 2) :: (code (start + 1) ++ [.jump start])

/-- One copy and then again, all of which may be left out. -/
def optionalRepeated (code : Code) (size : Nat) (greedy : Bool) : Code := fun start =>
  .split greedy (start + 1) (start + size + 2) :: repeated code size greedy (start + 1)

end Code

namespace Node

/-- How many instructions the pattern takes. -/
def size : Node → Nat
  | empty => 0
  | set _ => 1
  | look _ => 1
  | seq a b => a.size + b.size
  | alt a b => a.size + b.size + 2
  | loop least most _ body =>
    match least, most with
    | least, some most => least * body.size + (most - least) * (body.size + 1)
    | 0, none => body.size + 2
    | least + 1, none => least * body.size + (body.size + 1)

/-- The instructions of the pattern. -/
def code : Node → Code
  | empty => fun _ => []
  | set s => fun _ => [.take s]
  | look l => fun _ => [.check l]
  | seq a b => fun start => a.code start ++ b.code (start + a.size)
  | alt a b => fun start =>
    let second := start + a.size + 2
    .fork (start + 1) second :: (a.code (start + 1) ++ .jump (second + b.size) :: b.code second)
  | loop least most greedy body => fun start =>
    match least, most with
    | least, some most =>
      Code.copies body.code body.size least start ++
        Code.optionals body.code body.size greedy (most - least) (start + least * body.size)
    | 0, none =>
      if 0 < body.minWidth then Code.star body.code body.size greedy start
      else Code.optionalRepeated body.code body.size greedy start
    | least + 1, none =>
      Code.copies body.code body.size least start ++
        Code.repeated body.code body.size greedy (start + least * body.size)

/-- The pattern as a program. -/
def program (node : Node) : Array Inst := (node.code 0).toArray

end Node

end Descent.Pattern
