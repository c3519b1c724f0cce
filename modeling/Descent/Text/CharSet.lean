/-!
# Sets of characters

A set of characters is a list of ranges of code points, in increasing order, with a gap between any
two neighbours. The operations of a bracketed class (union, intersection, difference, complement) are
built from two: putting ranges in order and taking the gaps.
-/

namespace Descent

/-- The code points from `first` to `last`, both included. -/
structure CodeRange where
  first : Nat
  last : Nat
  deriving DecidableEq, Inhabited, Repr

namespace CodeRange

/-- Whether the range holds the code point. -/
def contains (r : CodeRange) (code : Nat) : Bool := r.first ≤ code && code ≤ r.last

/-- The range of one character. -/
def single (c : Char) : CodeRange := ⟨c.toNat, c.toNat⟩

end CodeRange

/-- The greatest code point. -/
def maxCode : Nat := 0x10FFFF

/-- A set of characters, as ranges in increasing order with gaps between them. -/
structure CharSet where
  ranges : List CodeRange
  deriving DecidableEq, Inhabited, Repr

namespace CharSet

/-- The set without characters. -/
def empty : CharSet := ⟨[]⟩

/-- The set of all characters. -/
def all : CharSet := ⟨[⟨0, maxCode⟩]⟩

/-- Whether one of the ranges, which are in increasing order, holds the code point. -/
def memberOf : List CodeRange → Nat → Bool
  | [], _ => false
  | r :: rest, code => if code < r.first then false else code ≤ r.last || memberOf rest code

/-- Whether the character belongs to the set. -/
def contains (s : CharSet) (c : Char) : Bool := memberOf s.ranges c.toNat

/-- Whether nothing belongs to the set. -/
def isEmpty (s : CharSet) : Bool := s.ranges.isEmpty

/-- Joins ranges that touch or overlap, given in order of their first code points. -/
def joined : List CodeRange → List CodeRange
  | [] => []
  | r :: rest =>
    match joined rest with
    | [] => [r]
    | next :: others =>
      if next.first ≤ r.last + 1 then ⟨r.first, max r.last next.last⟩ :: others
      else r :: next :: others

/-- The set of all code points in the given ranges, which come in any order. -/
def ofRanges (ranges : List CodeRange) : CharSet :=
  ⟨joined (ranges.mergeSort fun a b => a.first ≤ b.first)⟩

/-- The set of the given characters. -/
def ofChars (chars : List Char) : CharSet := ofRanges (chars.map CodeRange.single)

/-- The ranges between `start` and the end of the code space that the given ranges leave out. -/
def gaps (start : Nat) : List CodeRange → List CodeRange
  | [] => if start ≤ maxCode then [⟨start, maxCode⟩] else []
  | r :: rest =>
    if start < r.first then ⟨start, r.first - 1⟩ :: gaps (r.last + 1) rest
    else gaps (r.last + 1) rest

/-- Everything that is not in the set. -/
def complement (s : CharSet) : CharSet := ⟨gaps 0 s.ranges⟩

/-- Everything in one of the two sets. -/
def union (s t : CharSet) : CharSet := ofRanges (s.ranges ++ t.ranges)

/-- Everything in both sets. -/
def inter (s t : CharSet) : CharSet := (s.complement.union t.complement).complement

/-- Everything in the first set but not in the second. -/
def diff (s t : CharSet) : CharSet := s.inter t.complement

/-- Everything in exactly one of the two sets. -/
def symmDiff (s t : CharSet) : CharSet := (s.diff t).union (t.diff s)

/-- Whether the set holds nothing beyond `limit`. -/
def within (limit : Nat) (s : CharSet) : Bool := s.ranges.all (·.last ≤ limit)

end CharSet

end Descent
