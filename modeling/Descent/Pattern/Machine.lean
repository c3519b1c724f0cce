import Descent.Pattern.Engine
import Descent.Pattern.Program

/-!
# A machine that runs programs

The machine follows the preferred way first and turns back where it does not lead to the end of the
program. It marks what it has tried, each instruction at each place, and does not try it twice.
-/

namespace Descent.Pattern

/-- The instructions that have been tried at each place, as the bits of a number for each. -/
structure Marks where
  bits : Array Nat

namespace Marks

/-- Nothing has been tried. -/
def none (places : Nat) : Marks := ⟨Array.replicate places 0⟩

/-- Whether the instruction has been tried at the place. -/
def has (m : Marks) (address place : Nat) : Bool := (m.bits.getD place 0).testBit address

/-- The marks with one more. -/
def add (m : Marks) (address place : Nat) : Marks :=
  ⟨m.bits.modify place (· ||| 1 <<< address)⟩

end Marks

namespace Machine

/-- Tries the ways to go on in their order, until one leads past the last instruction: to the end of
the match. The marks tell what has been tried in vain, if none does. -/
def work (program : Array Inst) : Nat → Marks → List (Nat × Cursor) → Marks × Option Cursor
  | 0, marks, _ => (marks, none)
  | _ + 1, marks, [] => (marks, none)
  | fuel + 1, marks, (address, c) :: ways =>
    match program[address]? with
    | none => (marks, some c)
    | some inst =>
      if marks.has address c.offset then work program fuel marks ways
      else work program fuel (marks.add address c.offset) (inst.next address c ++ ways)

/-- Looks for the first place from which the program leads to its end. What was tried in vain from one
place is not tried again from the next. -/
def searchFrom (program : Array Inst) (fuel : Nat) (marks : Marks) (before : Option Char)
    (offset : Nat) (chars : List Char) : Option (Nat × Nat) :=
  match work program fuel marks [(0, ⟨before, chars, offset⟩)], chars with
  | (_, some e), _ => some (offset, e.offset)
  | (_, none), [] => none
  | (marks, none), c :: rest => searchFrom program fuel marks (some c) (offset + 1) rest

/-- Looks for a match in a text. Every instruction is tried at most once at each place and adds at most
two ways, which bounds the work. -/
def search (program : Array Inst) : Search := fun chars =>
  let places := chars.length + 1
  searchFrom program (2 * (program.size * places) + 2) (.none places) none 0 chars

end Machine

/-- An estimate of the memory, in bytes, that the set takes. A character beyond ASCII takes one state
per byte. -/
def setWeight (s : CharSet) : Nat :=
  match s.ranges with
  | [⟨a, b⟩] => if a = b then (if a < 0x80 then 32 else if a < 0x800 then 64
      else if a < 0x10000 then 96 else 128) else if b < 0x80 then 32 else 330
  | ranges => if s.within 0x7F then 32 + 8 * ranges.length else 256 + 56 * ranges.length

/-- An estimate of the memory, in bytes, that the pattern takes, in which repetitions are written
out. -/
def Node.weight : Node → Nat
  | empty => 32
  | set s => setWeight s
  | look _ => 32
  | seq a b => a.weight + b.weight
  | alt a b => a.weight + b.weight + 40
  | loop least most _ body =>
    match most with
    | some most => max least most * body.weight + (most - least) * 40
    | none => max least 1 * body.weight + 40

/-- Heavier patterns are refused. -/
def maxWeight : Nat := 10 * 0x100000

/-- The engine that turns patterns into programs, with the sets of `PropertyQuery.set?`. -/
def Engine.machine : Engine where
  sets := PropertyQuery.set?
  compile? _ node :=
    if node.weight ≤ maxWeight then
      let program := node.program
      some (Machine.search program)
    else none

end Descent.Pattern
