import Descent.Pattern.Program
import Mathlib.Data.Nat.Notation

/-!
# How programs are laid out

The instructions of a pattern stand in the program one after another, those of its parts among them.
`LaidOut` tells for each pattern which instructions stand between two addresses and where they lead, so
that what a program does is shown without reckoning with addresses.
-/

namespace Descent.Pattern

variable {program : Array Inst} {start stop address count size : ℕ} {inst : Inst} {greedy : Bool}
  {piece : ℕ → ℕ → Prop} {code : Code}

/-- Pieces of a program in a row. -/
inductive InRow (piece : ℕ → ℕ → Prop) : ℕ → ℕ → ℕ → Prop
  | nil {start : ℕ} : InRow piece 0 start start
  | cons {count start middle stop : ℕ} (hfirst : piece start middle)
    (hrest : InRow piece count middle stop) : InRow piece (count + 1) start stop

/-- Pieces in a row, before each of which the rest may be left out. -/
inductive LeftOut (program : Array Inst) (greedy : Bool) (piece : ℕ → ℕ → Prop) (stop : ℕ) :
    ℕ → ℕ → Prop
  | nil : LeftOut program greedy piece stop 0 stop
  | cons {count start middle : ℕ} (hsplit : program[start]? = some (.split greedy (start + 1) stop))
    (hfirst : piece (start + 1) middle) (hrest : LeftOut program greedy piece stop count middle) :
    LeftOut program greedy piece stop (count + 1) start

/-- A piece with a fork behind it that leads back. -/
def Repeated (program : Array Inst) (greedy : Bool) (piece : ℕ → ℕ → Prop) (start stop : ℕ) : Prop :=
  ∃ fork, piece start fork ∧ program[fork]? = some (.split greedy start stop) ∧ stop = fork + 1

namespace Node

/-- The instructions of the pattern stand between two addresses of the program. -/
def LaidOut (program : Array Inst) : Node → ℕ → ℕ → Prop
  | empty, start, stop => stop = start
  | set s, start, stop => program[start]? = some (.take s) ∧ stop = start + 1
  | look l, start, stop => program[start]? = some (.check l) ∧ stop = start + 1
  | seq a b, start, stop => ∃ middle, a.LaidOut program start middle ∧ b.LaidOut program middle stop
  | alt a b, start, stop => ∃ second, program[start]? = some (.fork (start + 1) second) ∧
      (∃ back, a.LaidOut program (start + 1) back ∧ program[back]? = some (.jump stop)) ∧
      b.LaidOut program second stop
  | loop least most greedy body, start, stop =>
    match least, most with
    | least, some most => ∃ middle, InRow (body.LaidOut program) least start middle ∧
        LeftOut program greedy (body.LaidOut program) stop (most - least) middle
    | 0, none => program[start]? = some (.split greedy (start + 1) stop) ∧
        if 0 < body.minWidth then
          ∃ back, body.LaidOut program (start + 1) back ∧ program[back]? = some (.jump start)
        else Repeated program greedy (body.LaidOut program) (start + 1) stop
    | least + 1, none => ∃ middle, InRow (body.LaidOut program) least start middle ∧
        Repeated program greedy (body.LaidOut program) middle stop

end Node

/-! ## Instructions at their addresses -/

/-- The program has these instructions from an address on. -/
def HasAt (program : Array Inst) (start : ℕ) (insts : List Inst) : Prop :=
  ∀ i < insts.length, program[start + i]? = insts[i]?

namespace HasAt

variable {insts insts' : List Inst}

theorem left (h : HasAt program start (insts ++ insts')) : HasAt program start insts := by
  intro i hi
  rw [h i (by simp; omega), List.getElem?_append_left hi]

theorem right (h : HasAt program start (insts ++ insts')) :
    HasAt program (start + insts.length) insts' := by
  intro i hi
  rw [Nat.add_assoc, h (insts.length + i) (by simp; omega), List.getElem?_append_right (by omega),
    Nat.add_sub_cancel_left]

theorem head (h : HasAt program start (inst :: insts)) : program[start]? = some inst := by
  simpa using h 0 (Nat.succ_pos _)

theorem tail (h : HasAt program start (inst :: insts)) : HasAt program (start + 1) insts := by
  intro i hi
  simpa [Nat.add_assoc, Nat.add_comm 1 i] using h (i + 1) (Nat.succ_lt_succ hi)

end HasAt

namespace Code

/-- The code has the same size at every address. -/
def OfSize (size : ℕ) (code : Code) : Prop := ∀ start, (code start).length = size

/-- Wherever a program has the code, a piece of this kind stands there. -/
def Lays (program : Array Inst) (code : Code) (size : ℕ) (piece : ℕ → ℕ → Prop) : Prop :=
  ∀ {start}, HasAt program start (code start) → piece start (start + size)

/-- The first copy and the others. -/
theorem copies_succ (code : Code) (size count start : ℕ) :
    copies code size (count + 1) start = code start ++ copies code size count (start + size) := by
  simp only [copies, List.range_succ_eq_map, List.flatMap_cons, List.flatMap_map, Nat.zero_mul,
    Nat.add_zero, Nat.succ_mul]
  congr 2
  funext i
  rw [Nat.add_assoc, Nat.add_comm size]

theorem length_copies (hsize : code.OfSize size) : (copies code size count).OfSize (count * size) := by
  intro start
  simp only [copies, List.length_flatMap, hsize _, List.map_const', List.length_range,
    List.sum_replicate_nat]

theorem length_optionals (hsize : code.OfSize size) :
    (optionals code size greedy count).OfSize (count * (size + 1)) :=
  fun start => length_copies (fun here => by simp [hsize (here + 1)]) start

/-- Copies of a code stand in a row. -/
theorem inRow_copies (hsize : code.OfSize size) (hcode : code.Lays program size piece)
    (h : HasAt program start (copies code size count start)) :
    InRow piece count start (start + count * size) := by
  induction count generalizing start with
  | zero =>
    rw [Nat.zero_mul]
    exact .nil
  | succ count ih =>
    rw [copies_succ] at h
    have hrest := h.right
    rw [hsize start] at hrest
    have hrow := ih hrest
    rw [show start + size + count * size = start + (count + 1) * size by rw [Nat.succ_mul]; omega]
      at hrow
    exact .cons (hcode h.left) hrow

/-- Copies that may be left out stand in a row, with a split before each. -/
theorem leftOut_optionals (hsize : code.OfSize size) (hcode : code.Lays program size piece)
    (h : HasAt program start (optionals code size greedy count start)) :
    LeftOut program greedy piece (start + count * (size + 1)) count start := by
  unfold optionals at h
  generalize hstop : start + count * (size + 1) = stop at h ⊢
  induction count generalizing start with
  | zero =>
    obtain rfl : start = stop := by simpa using hstop
    exact .nil
  | succ count ih =>
    rw [copies_succ] at h
    have hrest := h.right
    rw [List.length_cons, hsize (start + 1)] at hrest
    have hfirst := hcode h.left.tail
    rw [show start + 1 + size = start + (size + 1) by omega] at hfirst
    refine .cons h.left.head hfirst (ih ?_ hrest)
    rw [← hstop, Nat.succ_mul]
    omega

theorem repeated_repeated (hsize : code.OfSize size) (hcode : code.Lays program size piece)
    (h : HasAt program start (repeated code size greedy start)) :
    Repeated program greedy piece start (start + size + 1) := by
  have hfork := h.right
  rw [hsize start] at hfork
  exact ⟨_, hcode h.left, hfork.head, rfl⟩

end Code

namespace Node

/-- The size of a pattern is the number of its instructions. -/
theorem length_code (node : Node) : node.code.OfSize node.size := by
  induction node with
  | empty | set | look => exact fun _ => rfl
  | seq a b iha ihb =>
    intro start
    simp [code, size, iha _, ihb _]
  | alt a b iha ihb =>
    intro start
    simp only [code, size, List.length_cons, List.length_append, iha _, ihb _]
    omega
  | loop least most greedy body ih =>
    intro start
    match least, most with
    | least, some most =>
      simp [code, size, Code.length_copies ih _, Code.length_optionals ih _]
    | 0, none =>
      simp only [code, size]
      split
      · simp [Code.star, ih _]
      · simp [Code.optionalRepeated, Code.repeated, ih _]
    | least + 1, none => simp [code, size, Code.repeated, Code.length_copies ih _, ih _]

/-- Where a program has the instructions of a pattern, the pattern is laid out. -/
theorem laidOut_code (node : Node) : node.code.Lays program node.size (node.LaidOut program) := by
  induction node with
  | empty => exact fun _ => rfl
  | set s => exact fun h => ⟨h.head, rfl⟩
  | look l => exact fun h => ⟨h.head, rfl⟩
  | seq a b iha ihb =>
    intro start h
    have hsecond := h.right
    rw [a.length_code start] at hsecond
    have hb := ihb hsecond
    rw [Nat.add_assoc] at hb
    exact ⟨_, iha h.left, hb⟩
  | alt a b iha ihb =>
    intro start h
    have hafter := h.tail.right
    rw [a.length_code (start + 1), show start + 1 + a.size = start + a.size + 1 by omega] at hafter
    have hfirst := iha h.tail.left
    rw [show start + 1 + a.size = start + a.size + 1 by omega] at hfirst
    have hstop : start + a.size + 2 + b.size = start + (alt a b).size := by
      simp only [size]
      omega
    have hjump := hafter.head
    have hsecond := ihb hafter.tail
    rw [hstop] at hjump
    rw [show start + a.size + 1 + 1 + b.size = start + (alt a b).size from hstop] at hsecond
    exact ⟨_, h.head, ⟨_, hfirst, hjump⟩, hsecond⟩
  | loop least most greedy body ih =>
    intro start h
    have hsize := body.length_code
    match least, most with
    | least, some most =>
      have hmore := h.right
      rw [Code.length_copies hsize] at hmore
      have hleft := Code.leftOut_optionals hsize ih hmore
      rw [Nat.add_assoc] at hleft
      exact ⟨_, Code.inRow_copies hsize ih h.left, hleft⟩
    | 0, none =>
      simp only [code] at h
      simp only [LaidOut]
      split at h
      next hwidth =>
        rw [if_pos hwidth]
        have hback := h.tail.right
        rw [hsize (start + 1)] at hback
        exact ⟨h.head, _, ih h.tail.left, hback.head⟩
      next hwidth =>
        rw [if_neg hwidth]
        have hrepeated := Code.repeated_repeated hsize ih h.tail
        rw [show start + 1 + body.size + 1 = start + (body.size + 2) by omega] at hrepeated
        exact ⟨h.head, hrepeated⟩
    | least + 1, none =>
      have hmore := h.right
      rw [Code.length_copies hsize] at hmore
      have hrepeated := Code.repeated_repeated hsize ih hmore
      rw [Nat.add_assoc, Nat.add_assoc] at hrepeated
      exact ⟨_, Code.inRow_copies hsize ih h.left, hrepeated⟩

/-- A pattern fills its own program. -/
theorem laidOut_program (node : Node) : node.LaidOut node.program 0 node.size := by
  have h : node.LaidOut node.program 0 (0 + node.size) :=
    node.laidOut_code fun i _ => by simp [program]
  rwa [Nat.zero_add] at h

theorem getElem?_program_size (node : Node) : node.program[node.size]? = none := by
  simp [program, node.length_code 0]

end Node

end Descent.Pattern
