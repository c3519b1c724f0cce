import Descent.Store

/-!
# The tables of a store

A store changes in three ways: a table is started, a table is given another state, and tables that
nobody keeps are dropped. For the first two it is said here what the tables are afterwards. Work that
leaves all tables as they were, and at most adds new ones, extends the store (`Store.Extends`).
-/

namespace Descent

namespace Store

variable {s s' s'' : Store} {table : Table} {id other : Nat}

/-- A number that no table has yet counts as that of a dropped one. -/
theorem table_of_size_le (h : s.tables.size ≤ id) : s.table id = .dropped := by
  simp [Store.table, h]

/-- A table that is not dropped has a number. -/
theorem lt_size_of_table_ne (h : s.table id ≠ .dropped) : id < s.tables.size :=
  Nat.lt_of_not_le fun hsize => h (table_of_size_le hsize)

/-- A new table is forming, and the others stay as they were. -/
theorem table_allocate (s : Store) (id : Nat) :
    s.allocate.2.table id = if id = s.tables.size then .forming else s.table id := by
  simp only [allocate, Store.table, Array.getElem?_push]
  split
  · rfl
  · rfl

/-- Starting a table adds one number. -/
@[simp] theorem size_allocate (s : Store) : s.allocate.2.tables.size = s.tables.size + 1 := by
  simp [allocate]

/-- A new table has the first number that is free. -/
@[simp] theorem allocate_fst (s : Store) : s.allocate.1 = s.tables.size := rfl

/-- A table that is there is given its new state. -/
theorem table_put_self (h : id < s.tables.size) : (s.put id table).table id = table := by
  simp [put, Store.table, h]

/-- The other tables stay as they were. -/
theorem table_put_of_ne (h : other ≠ id) : (s.put id table).table other = s.table other := by
  simp [put, Store.table, Array.getElem?_setIfInBounds_ne h.symm]

/-- No number is added then. -/
@[simp] theorem size_put (s : Store) (id : Nat) (table : Table) :
    (s.put id table).tables.size = s.tables.size := by
  simp [put]

/-- A table can be started and given its state at once. -/
theorem put_allocate (s : Store) (table : Table) :
    s.allocate.2.put s.tables.size table = ⟨s.tables.push table⟩ := by
  simp [allocate, put, Array.setIfInBounds, Array.set_push]

/-- One store has all tables of another, in the same state, and maybe others. -/
structure Extends (s s' : Store) : Prop where
  size_le : s.tables.size ≤ s'.tables.size
  table_eq : ∀ id < s.tables.size, s'.table id = s.table id

namespace Extends

/-- Nothing has changed. -/
theorem refl (s : Store) : s.Extends s := ⟨Nat.le_refl _, fun _ _ => rfl⟩

/-- Extensions follow each other. -/
theorem trans (h : s.Extends s') (h' : s'.Extends s'') : s.Extends s'' where
  size_le := Nat.le_trans h.size_le h'.size_le
  table_eq id hid := by rw [h'.table_eq id (Nat.lt_of_lt_of_le hid h.size_le), h.table_eq id hid]

/-- A new table changes none of those that are there. -/
theorem allocate (s : Store) : s.Extends s.allocate.2 where
  size_le := by simp
  table_eq id hid := by rw [table_allocate, if_neg (Nat.ne_of_lt hid)]

/-- What extends a store with a new table has a table of that number. -/
theorem size_lt (h : s.allocate.2.Extends s') : s.tables.size < s'.tables.size := by
  have hle := h.size_le
  rwa [size_allocate] at hle

/-- The new state of a table that was not there changes none of the others. -/
theorem put (h : s.Extends s') (hid : s.tables.size ≤ id) (table : Table) :
    s.Extends (s'.put id table) where
  size_le := by simpa using h.size_le
  table_eq other hother := by
    rw [table_put_of_ne (Nat.ne_of_lt (Nat.lt_of_lt_of_le hother hid)), h.table_eq other hother]

end Extends

end Store

end Descent
