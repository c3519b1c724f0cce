import Descent.Outcome
import Descent.Render.JsonText
import Descent.Render.Yaml.Scalar
import Descent.Text.Quoted

/-!
# Rendering outcomes

An outcome is shown in one of three formats: as three lines of text with quoted matches, as a JSON
document, or as a YAML document.
-/

namespace Descent

/-- A format for outcomes. -/
inductive Format
  | text | json | yaml
  deriving DecidableEq, Inhabited, Repr

/-- The name of a format. -/
def Format.name : Format → String
  | text => "text"
  | json => "json"
  | yaml => "yaml"

/-- All formats. -/
def Format.all : List Format := [.text, .json, .yaml]

namespace Render

/-- A truth value as a word. -/
def truth (b : Bool) : List Char := if b then "true".toList else "false".toList

/-- The outcome as three lines with quoted texts. -/
def text (o : Outcome) : List Char :=
  "ok: ".toList ++ truth o.ok ++
    "\nmatched: ".toList ++ Quoted.text o.matched ++
    "\nremaining: ".toList ++ Quoted.text o.remaining.chars ++ ['\n']

/-- The outcome as a JSON document. -/
def json (o : Outcome) : List Char :=
  ['\x7b'] ++ "\n  \"ok\": ".toList ++ truth o.ok ++
    ",\n  \"matched\": ".toList ++ JsonText.string o.matched ++
    ",\n  \"remaining\": ".toList ++ JsonText.string o.remaining.chars ++ ['\n', '\x7d', '\n']

/-- The outcome as a YAML document. -/
def yaml (o : Outcome) : List Char :=
  "ok: ".toList ++ truth o.ok ++
    "\nmatched: ".toList ++ Yaml.scalar o.matched ++
    "remaining: ".toList ++ Yaml.scalar o.remaining.chars

end Render

/-- The outcome in a format. -/
def Format.render : Format → Outcome → List Char
  | text => Render.text
  | json => Render.json
  | yaml => Render.yaml

end Descent
