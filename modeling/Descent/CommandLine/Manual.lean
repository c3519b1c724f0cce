import Descent.CommandLine.Argument

/-!
# The manual

What the program shows when it is asked how it is used.
-/

namespace Descent.CommandLine

/-- How the whole program is used. -/
def programManual : String :=
  "\n".intercalate
    [purpose,
     "",
     "Usage: parsnip <COMMAND>",
     "",
     "Commands:",
     "  parse     Parse input with a built-in grammar",
     "  grammars  List the built-in grammars",
     "  help      Print this message or the help of the given subcommand(s)",
     "",
     "Options:",
     "  -h, --help     Print help",
     "  -V, --version  Print version",
     ""]

/-- How a command is used. -/
def verbManual : Verb → String
  | .parse =>
    "\n".intercalate
      ["Parse input with a built-in grammar",
       "",
       "Usage: parsnip parse [OPTIONS] [path]",
       "",
       "Arguments:",
       "  [path]  File to parse; \x60-\x60 or nothing reads stdin",
       "",
       "Options:",
       "  -t, --text <text>        Parse this text instead of a file",
       "  -g, --grammar <grammar>  Grammar to run (json, assignment)",
       "  -f, --format <format>    Output format (text, json, yaml)",
       "  -c, --config <config>    Configuration file layered over the defaults",
       "  -v, --verbose            Trace every rule the grammar enters",
       "  -h, --help               Print help",
       ""]
  | .grammars =>
    "\n".intercalate
      ["List the built-in grammars",
       "",
       "Usage: parsnip grammars",
       "",
       "Options:",
       "  -h, --help  Print help",
       ""]

/-- How a command is used, or the program as a whole. -/
def manual : Option Verb → String
  | none => programManual
  | some verb => verbManual verb

/-- The version as the program shows it. -/
def versionLine : String := "parsnip 0.1.0\n"

/-- The list of the grammars. -/
def grammarList : String :=
  "Available grammars:\n\n" ++
    String.join (Builtin.all.map fun b => "  " ++ b.name ++ "\n    " ++ b.description ++ "\n\n")

end Descent.CommandLine
