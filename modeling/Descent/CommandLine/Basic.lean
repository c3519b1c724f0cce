import Descent.CommandLine.Manual
import Descent.CommandLine.Reader
import Descent.CommandLine.Surroundings
import Descent.Parser.Run
import Descent.Settings.Basic
import Descent.Text.Unstyled

/-!
# The command line

Does what a command line asks for: reads the settings and the input, runs the grammar, and shows the
outcome. The status tells an input that is accepted from one that is rejected, and both from a run that
did not come to an outcome.
-/

namespace Descent.CommandLine

/-- What a run leaves behind. -/
structure Report where
  /-- Zero for an accepted input, one for a rejected one, two if nothing came of the run. -/
  status : Nat
  output : List Char
  /-- What is said about a run of which nothing came. -/
  complaint : List Char
  deriving DecidableEq, Repr

namespace Report

/-- A run that does what was asked for and shows a text. -/
def shown (text : String) : Report := ⟨0, text.toList, []⟩

/-- A run of which nothing came. -/
def failed (complaint : String) : Report := ⟨2, [], complaint.toList⟩

end Report

/-- The path of a file of settings without empty names and points. -/
def plainPath (path : String) : String :=
  let names := (path.splitOn "/").filter fun name => name ≠ "" ∧ name ≠ "."
  (if path.startsWith "/" then "/" else "") ++ "/".intercalate names

/-- The path with the usual ending of files of settings, if it ends with a name. A path without any names
ends with that of the folder that paths start from. -/
def withEnding? (folder : Option String) (path : String) : Option String :=
  let plain := plainPath path
  if plain = "" then folder.map fun name => "../" ++ name ++ ".toml"
  else
    match (plain.splitOn "/").getLast? with
    | some name => if name = "" ∨ name = ".." then none else some (plain ++ ".toml")
    | none => none

/-- The paths at which a file of settings is looked for. -/
def settingsPaths (folder : Option String) (path : String) : List String :=
  path :: (withEnding? folder path).toList

/-- Whether the reason says that there is no file at all. -/
def ReadError.meansNoFile : ReadError → Bool
  | missing | isFolder | notFolder | nameTooLong => true
  | notText | other _ => false

/-- The first file that is stored at one of some paths, or why it cannot be read. -/
def firstFile? (s : Surroundings) : List String → Option (Except SettingsError SettingsFile)
  | [] => none
  | path :: paths =>
    if s.isFile path then
      match s.fileText path with
      | .ok text => some (.ok ⟨plainPath path, text⟩)
      | .error e =>
        if e.meansNoFile then firstFile? s paths else some (.error (.unreadable e.message))
    else firstFile? s paths

/-- The file of settings with a name. -/
def settingsFile (s : Surroundings) (name : String) : Except SettingsError SettingsFile :=
  (firstFile? s (settingsPaths s.folder name)).getD (.error (.notFound name))

/-- The file of settings that is read wherever it is found. -/
def localSettings : String := "parsnip.toml"

/-- The path that was given. -/
def path? (given : List Given) : Option String :=
  given.findSome? fun
    | .path p => some p
    | _ => none

/-- The text that was given. -/
def text? (given : List Given) : Option String :=
  given.findSome? fun
    | .text t => some t
    | _ => none

/-- The layer of settings that an argument stands for. -/
def layer? (s : Surroundings) : Given → Option Layer
  | .config name => some (.file true (settingsFile s name))
  | .grammar b => some (.value "parse.grammar" (.text b.name))
  | .format name => some (.value "parse.format" (.text name))
  | _ => none

/-- The layers of settings of a run. -/
def layers (s : Surroundings) (given : List Given) : List Layer :=
  .file false (settingsFile s localSettings) :: given.filterMap (layer? s)

/-- The text without one line end at its end. -/
def dropFinalLineEnd (text : List Char) : List Char :=
  match text.reverse with
  | '\n' :: '\r' :: rest | '\n' :: rest => rest.reverse
  | _ => text

/-- The input of a run: a text that is given, as it is, or else what a file or the standard input holds,
without a line end at its end if the settings say so. -/
def input (s : Surroundings) (given : List Given) (trims : Bool) : Except ReadError (List Char) :=
  match text? given with
  | some text => .ok text.toList
  | none => do
    let text ←
      match path? given with
      | none | some "-" => s.inputText
      | some path => s.fileText path
    return if trims then dropFinalLineEnd text else text

/-- Runs a grammar. -/
def parse (s : Surroundings) (given : List Given) : Report :=
  match Settings.load (layers s given) with
  | .error e => .failed ("Configuration error: " ++ e.message ++ "\n")
  | .ok settings =>
    match input s given settings.trimsLineEnd with
    | .error e => .failed ("Error reading input: " ++ e.message ++ "\n")
    | .ok text =>
      match settings.grammar.parser with
      | .error e => .failed ("Grammar error: " ++ e.message ++ "\n")
      | .ok (p, store) =>
        match store.run p (.ofList text) with
        | none => .failed "Grammar error: the run does not end\n"
        | some r => ⟨if r.outcome.ok then 0 else 1, settings.format.render r.outcome, []⟩

/-- Does what was asked for. -/
def perform (s : Surroundings) : Request → Report
  | .help verb => .shown (manual verb)
  | .version => .shown versionLine
  | .grammars => .shown grammarList
  | .parse given => parse s given

/-- What is said about a command line that is not understood. -/
def UsageError.complaint (e : UsageError) : List Char :=
  match e with
  | nothing => programManual.toList
  | e => Unstyled.text (e.message ++ "\n\nFor more information, try '--help'.\n").toList

/-- Runs the program with the words of its command line. -/
def run (s : Surroundings) (words : List String) : Report :=
  match Request.read words with
  | .ok r => perform s r
  | .error e => ⟨2, [], e.complaint⟩

end Descent.CommandLine
