import Descent.Settings.Error
import Descent.Toml.Document

/-!
# Layers of settings

Settings come from the defaults, then from files in the order in which they are named, then from values
that are given directly. Each layer is laid over what is there already, so that a value given directly
wins over every file, wherever it stands among them.
-/

namespace Descent

/-- A file of settings. -/
structure SettingsFile where
  /-- The name by which complaints call it. -/
  name : String
  text : List Char
  deriving DecidableEq, Inhabited, Repr

/-- One source of settings. -/
inductive Layer
  /-- A file, or why it cannot be read. That matters only if the file is required. -/
  | file (required : Bool) (content : Except SettingsError SettingsFile)
  /-- A value given directly for one key. -/
  | value (key : String) (s : Scalar)

namespace Layer

/-- The settings that hold where no layer says otherwise. -/
def defaults : Setting :=
  let text := fun (s : String) => Setting.single (.text s) none
  .table
    [("parse", .table
      [("grammar", text "json"), ("format", text "text"),
       ("trim_trailing_newline", .single (.bool true) none)] none),
     ("logging", .table [("level", text "warn")] none)] none

/-- The path that an outermost key of a file names. A key that writes no path names itself. -/
def pathOfKey (key : String) : KeyPath := (KeyPath.ofText? key.toList).getD ⟨key, []⟩

/-- Lays the entries of a file over the settings. -/
def addFile (f : SettingsFile) (root : Setting) : Except SettingsError Setting :=
  match Toml.document? f.text with
  | none => .error (.fileSyntax f.name)
  | some entries =>
    .ok (entries.foldl (fun root (key, d) => root.set (pathOfKey key) (.ofDatum (some f.name) d)) root)

/-- Lays a file over the settings; other layers are left for later. -/
def addSource (root : Setting) : Layer → Except SettingsError Setting
  | file _ (.ok f) => addFile f root
  | file true (.error e) => .error e
  | file false (.error _) => .ok root
  | value _ _ => .ok root

/-- The path and the value of a layer that gives a value directly. -/
def override? : Layer → Except SettingsError (Option (KeyPath × Scalar))
  | value key s =>
    match KeyPath.ofText? key.toList with
    | some path => .ok (some (path, s))
    | none => .error (.keySyntax key)
  | file _ _ => .ok none

/-- The tree of all settings. A bad key is found before any file is read. -/
def tree (layers : List Layer) : Except SettingsError Setting := do
  let overrides ← layers.mapM override?
  let root ← layers.foldlM addSource defaults
  return (overrides.filterMap id).foldl (fun root (path, s) => root.set path (.single s none)) root

end Layer

end Descent
