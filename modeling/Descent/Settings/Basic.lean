import Descent.Builtin
import Descent.Render.Basic
import Descent.Settings.Layer

/-!
# Settings

Which grammar to run, how to show what it reports, whether a line end at the end of the input counts, and
how much to log. Settings are read from the tree that all layers make together, so that a wrong value in
a layer does no harm where another layer covers it.
-/

namespace Descent

/-- The settings of the program. -/
structure Settings where
  grammar : Builtin
  format : Format
  /-- Whether a line end at the end of a file or of the standard input is dropped. -/
  trimsLineEnd : Bool
  /-- What is logged, as a filter. -/
  level : String
  deriving DecidableEq, Inhabited, Repr

namespace Setting

/-- Finds the one that a setting names among those with the given names, in whatever case. -/
def choice (kind : SettingKind) (all : List (String × α)) (s : Setting) : Except SettingsError α :=
  let named := fun (name : String) =>
    match all.find? fun (n, _) => key n == key name with
    | some (_, a) => Except.ok a
    | none => .error (.unknownName kind name)
  match s with
  | single (.text name) _ => named name
  | table [(name, _)] _ => named name
  | _ => .error (.notAName kind)

/-- A truth value: one as such, a number other than zero, or a word for one. -/
def toBool (place : String) (s : Setting) : Except SettingsError Bool :=
  let wrong := fun (found : String) => Except.error (.wrongType found "a boolean" place s.origin)
  match s with
  | single (.bool b) _ => .ok b
  | single (.int n) _ => .ok (n != 0)
  | single (.float x) _ => .ok !x.isZero
  | single (.text word) _ =>
    let word := key word
    if word ∈ ["1", "true", "on", "yes"] then .ok true
    else if word ∈ ["0", "false", "off", "no"] then .ok false
    else wrong (Scalar.kind "" (.text word))
  | s => wrong s.kind

/-- A text: one as such, or a single value as it is written. -/
def toText (place : String) (s : Setting) : Except SettingsError String :=
  match s with
  | single (.text t) _ => .ok t
  | single (.bool b) _ => .ok (boolWord b)
  | single (.int n) _ => .ok (toString n)
  | single (.float x) _ => .ok x.toText
  | s => .error (.wrongType s.kind "a string" place s.origin)

/-- The setting of a name, which must be there. -/
def required (name : String) : Option α → Except SettingsError α
  | some a => .ok a
  | none => .error (.missing name)

/-- The element at an index of a list for a group of `size` settings. -/
def element (kind : SettingKind) (size : Nat) (items : List Setting) (i : Nat) :
    Except SettingsError Setting :=
  match items[i]? with
  | some s => .ok s
  | none => .error (.tooFew kind i size)

/-- The grammar that a setting names. -/
def toGrammar (s : Setting) : Except SettingsError Builtin :=
  s.choice .grammar (Builtin.all.map fun b => (b.name, b))

/-- The format that a setting names. -/
def toFormat (s : Setting) : Except SettingsError Format :=
  s.choice .format (Format.all.map fun f => (f.name, f))

/-- The settings for parsing: a table, or a list in the order of the fields. -/
def toParsing : Setting → Except SettingsError (Builtin × Format × Bool)
  | table entries _ => do
    let grammar ← (entries.lookup "grammar").mapM toGrammar
    let format ← (entries.lookup "format").mapM toFormat
    let trims ← (entries.lookup "trim_trailing_newline").mapM (toBool "parse.trim_trailing_newline")
    return (← required "grammar" grammar, ← required "format" format,
      ← required "trim_trailing_newline" trims)
  | list items _ => do
    let grammar ← (← element .parse 3 items 0).toGrammar
    let format ← (← element .parse 3 items 1).toFormat
    let trims ← (← element .parse 3 items 2).toBool "parse[2]"
    return (grammar, format, trims)
  | s => .error (.notAGroup .parse s.kind)

/-- The setting for logging: a table, or a list of one element. -/
def toLevel : Setting → Except SettingsError String
  | table entries _ => do
    required "level" (← (entries.lookup "level").mapM (toText "logging.level"))
  | list items _ => do (← element .logging 1 items 0).toText "logging[0]"
  | s => .error (.notAGroup .logging s.kind)

end Setting

namespace Settings

/-- Reads the settings from a tree. -/
def ofTree (root : Setting) : Except SettingsError Settings := do
  let parsing ← (root.lookup? "parse").mapM Setting.toParsing
  let level ← (root.lookup? "logging").mapM Setting.toLevel
  let (grammar, format, trims) ← Setting.required "parse" parsing
  return ⟨grammar, format, trims, ← Setting.required "logging" level⟩

/-- The settings that layers make on top of the defaults. -/
def load (layers : List Layer) : Except SettingsError Settings := do ofTree (← Layer.tree layers)

end Settings

end Descent
