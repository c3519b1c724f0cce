import Descent.Datum

/-!
# Tables under construction

While a TOML document is read, its tables grow: headers open tables, keys of several parts make tables
on the way, and headers in double brackets add elements to lists of tables. A table remembers how it
came about, because that decides what may still be added to it.
-/

namespace Descent.Toml

mutual

/-- What a key of a table stands for. -/
inductive Item
  /-- A finished value. -/
  | value (d : Datum)
  /-- A table. -/
  | table (t : Table)
  /-- A list of tables, the last one first. -/
  | tables (ts : List Table)

/-- A table. It is `implied` if no header and no braces wrote it, and `dotted` if a key of several parts
in front of a value made it. -/
inductive Table
  | mk (implied dotted : Bool) (entries : List (String × Item))

end

mutual

/-- The finished form of an item. -/
def Item.toDatum : Item → Datum
  | .value d => d
  | .table t => t.toDatum
  | .tables ts => .list (Table.toData ts).reverse

/-- The finished form of a table. -/
def Table.toDatum : Table → Datum
  | .mk _ _ entries => .table (Table.toEntries entries)

/-- The finished forms of tables. -/
def Table.toData : List Table → List Datum
  | [] => []
  | t :: ts => t.toDatum :: Table.toData ts

/-- The finished forms of entries. -/
def Table.toEntries : List (String × Item) → List (String × Datum)
  | [] => []
  | (key, item) :: entries => (key, item.toDatum) :: Table.toEntries entries

end

namespace Table

/-- A table that is written out and holds nothing yet. -/
def empty : Table := .mk false false []

/-- Whether the table is only implied. -/
def implied : Table → Bool
  | .mk implied _ _ => implied

/-- Whether the table was made by a key of several parts in front of a value. -/
def dotted : Table → Bool
  | .mk _ dotted _ => dotted

/-- The entries of the table. -/
def entries : Table → List (String × Item)
  | .mk _ _ entries => entries

/-- What a key stands for. -/
def get? (t : Table) (key : String) : Option Item := t.entries.lookup key

/-- The entries with a key standing for the given item. -/
def putEntry (key : String) (item : Item) : List (String × Item) → List (String × Item)
  | [] => [(key, item)]
  | (k, old) :: entries =>
    if k = key then (key, item) :: entries else (k, old) :: putEntry key item entries

/-- The table with a key standing for the given item. -/
def put (t : Table) (key : String) (item : Item) : Table :=
  .mk t.implied t.dotted (putEntry key item t.entries)

/-- Changes the table at the end of a path. Tables that are missing on the way are made; they are implied,
and `viaDots` if the path stands in front of a value. Of a list of tables the last one is meant. A path in
front of a value does not lead into tables that are written out. -/
def alter? (viaDots : Bool) (change : Table → Option Table) : List String → Table → Option Table
  | [], t => change t
  | key :: path, t =>
    match t.get? key with
    | none => (alter? viaDots change path (.mk true viaDots [])).map fun u => t.put key (.table u)
    | some (.value _) => none
    | some (.tables []) => none
    | some (.tables (last :: earlier)) =>
      (alter? viaDots change path last).map fun u => t.put key (.tables (u :: earlier))
    | some (.table u) =>
      if viaDots && !u.implied then none
      else (alter? viaDots change path u).map fun u => t.put key (.table u)

/-- Adds a value under a key of one or more parts. The key must be new, and a table that came about in
another way than through such keys does not grow through them. -/
def define? (path : List String) (value : Datum) (t : Table) : Option Table :=
  match path.reverse with
  | [] => none
  | last :: front =>
    t.alter? true (fun u =>
      if u.dotted == front.isEmpty || (u.get? last).isSome then none
      else some (u.put last (.value value))) front.reverse

/-- Opens a table by its header. A table is written out only once. -/
def openTable? (path : List String) (t : Table) : Option Table :=
  match path.reverse with
  | [] => none
  | last :: front =>
    t.alter? false (fun parent =>
      match parent.get? last with
      | none => some (parent.put last (.table empty))
      | some (.table u) =>
        if u.implied && !u.dotted then some (parent.put last (.table (.mk false false u.entries)))
        else none
      | some _ => none) front.reverse

/-- Adds an element to a list of tables by its header. -/
def openElement? (path : List String) (t : Table) : Option Table :=
  match path.reverse with
  | [] => none
  | last :: front =>
    t.alter? false (fun parent =>
      match parent.get? last with
      | none => some (parent.put last (.tables [empty]))
      | some (.tables ts) => some (parent.put last (.tables (empty :: ts)))
      | some _ => none) front.reverse

end Table

end Descent.Toml
