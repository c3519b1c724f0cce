/-!
# Slots

Values under names. A name holds one value at a time; putting a new one there takes the old one away.
-/

namespace Descent

/-- Values under names. -/
structure Slots (α : Type) where
  entries : List (String × α)

namespace Slots

/-- No values. -/
def empty : Slots α := ⟨[]⟩

/-- The value under a name. -/
def get? (s : Slots α) (name : String) : Option α := s.entries.lookup name

/-- Whether there is a value under a name. -/
def contains (s : Slots α) (name : String) : Bool := (s.get? name).isSome

/-- The slots without the value under a name. -/
def erase (s : Slots α) (name : String) : Slots α := ⟨s.entries.filter (·.1 != name)⟩

/-- The slots with a value under a name, in place of the one that was there. -/
def put (s : Slots α) (name : String) (value : α) : Slots α := ⟨(name, value) :: (s.erase name).entries⟩

/-- All values. -/
def values (s : Slots α) : List α := s.entries.map (·.2)

end Slots

end Descent
