import Descent.Datum
import Descent.Settings.KeyPath
import Descent.Unicode.LowerCase

/-!
# Trees of settings

Settings from several places are laid over each other in one tree. Tables are merged entry by entry, so
that a layer leaves alone what it does not mention; everything else is replaced. Every value remembers
the file it was read from, if any. Keys are written in small letters.
-/

namespace Descent

/-- A setting, or many of them. -/
inductive Setting
  /-- A single value. -/
  | single (s : Scalar) (origin : Option String)
  /-- A list. -/
  | list (items : List Setting) (origin : Option String)
  /-- A table. -/
  | table (entries : List (String × Setting)) (origin : Option String)
  deriving Inhabited

namespace Setting

mutual

/-- A value that was read from a file. -/
def ofDatum (origin : Option String) : Datum → Setting
  | .list items => .list (ofData origin items) origin
  | .table entries => .table (ofEntries origin entries) origin
  | .scalar s => .single s origin

/-- Values that were read from a file. -/
def ofData (origin : Option String) : List Datum → List Setting
  | [] => []
  | d :: ds => ofDatum origin d :: ofData origin ds

/-- Entries that were read from a file. -/
def ofEntries (origin : Option String) : List (String × Datum) → List (String × Setting)
  | [] => []
  | (key, d) :: entries => (key, ofDatum origin d) :: ofEntries origin entries

end

/-- The key in small letters. -/
def key (name : String) : String := String.ofList (Unicode.toSmall name.toList)

/-- A place where nothing was set. -/
def nothing : Setting := .single .null none

/-- A table without entries. -/
def noEntries : Setting := .table [] none

/-- The entries of a table; anything else has none. -/
def entries : Setting → List (String × Setting)
  | table entries _ => entries
  | _ => []

/-- The items of a list; anything else has none. -/
def items : Setting → List Setting
  | list items _ => items
  | _ => []

/-- The file a value was read from. -/
def origin : Setting → Option String
  | single _ origin | list _ origin | table _ origin => origin

/-- The value of an entry. -/
def lookup? (s : Setting) (key : String) : Option Setting := s.entries.lookup key

/-- The entries with one of them set. -/
def putInto (key : String) (value : Setting) : List (String × Setting) → List (String × Setting)
  | [] => [(key, value)]
  | (k, old) :: rest => if k = key then (key, value) :: rest else (k, old) :: putInto key value rest

/-- Sets an entry. What is no table makes way for one. -/
def put (s : Setting) (key : String) (value : Setting) : Setting :=
  match s with
  | table entries origin => .table (putInto key value entries) origin
  | _ => .table [(key, value)] none

mutual

/-- Lays a value over an entry: a table over what is there, entry by entry, anything else in its place. -/
def overlay (name : String) : Setting → Setting → Setting
  | table incoming _, root =>
    root.put name (overlayAll incoming ((root.lookup? name).getD noEntries))
  | value, root => root.put name value

/-- Lays entries over those of a table. -/
def overlayAll : List (String × Setting) → Setting → Setting
  | [], target => target
  | (name, value) :: rest, target => overlayAll rest (overlay (key name) value target)

end

/-- The index of a position in a list of the given length. -/
def index (length : Nat) : Int → Nat
  | .ofNat n => n
  | .negSucc n => length - (n + 1)

/-- Changes an element of a list, which grows if it is too short. What is no list makes way for one. -/
def changeElement (position : Int) (change : Setting → Setting) (s : Setting) : Setting :=
  let i := index s.items.length position
  let items := s.items ++ List.replicate (i + 1 - s.items.length) nothing
  let origin := match s with
    | list _ origin => origin
    | _ => none
  .list (items.modify i change) origin

/-- Lays a value over the place at the end of some steps. What stands in the way of a step makes way for
a table or a list. -/
def setAt (value : Setting) (root : Setting) : KeyStep → List KeyStep → Setting
  | .entry name, [] => overlay (key name) value root
  | .element position, [] => root.changeElement position fun _ => value
  | .entry name, step :: steps =>
    root.put (key name) (setAt value ((root.lookup? (key name)).getD nothing) step steps)
  | .element position, step :: steps =>
    root.changeElement position fun s => setAt value s step steps

/-- Lays a value over the place that a path names. -/
def set (root : Setting) (path : KeyPath) (value : Setting) : Setting :=
  setAt value root (.entry path.first) path.rest

/-- What a setting is called when another kind of value is expected. -/
def kind : Setting → String
  | single s _ => s.kind "unit value"
  | list .. => "sequence"
  | table .. => "map"

end Setting

end Descent
