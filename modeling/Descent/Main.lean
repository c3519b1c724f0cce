import Descent.CommandLine.Basic

/-!
# The program

Reads what a command line can ask for, and writes the report of the run.
-/

namespace Descent.CommandLine

/-- Reads what is at a path. -/
def readFile (path : String) : IO (Except ReadError ByteArray) := do
  try
    return .ok (← IO.FS.readBinFile path)
  catch
    | .noFileOrDirectory .. => return .error .missing
    | .inappropriateType none .. => return .error .isFolder
    | .inappropriateType (some _) .. => return .error .notFolder
    | .invalidArgument .. => return .error .nameTooLong
    | .permissionDenied .. => return .error (.other "Permission denied (os error 13)")
    | e => return .error (.other (toString e))

/-- Whether a file is stored at a path. -/
def isStored (path : String) : IO Bool := do
  try
    return (← ((← IO.currentDir) / path).metadata).type == .file
  catch _ => return false

/-- The paths at which a request may look for settings. -/
def Request.settingsPaths (folder : Option String) : Request → List String
  | .parse given =>
    CommandLine.settingsPaths folder localSettings ++ given.flatMap fun
      | .config name => CommandLine.settingsPaths folder name
      | _ => []
  | _ => []

/-- The path from which a request reads its input. -/
def Request.inputPath? : Request → Option String
  | .parse given => if (text? given).isSome then none else (path? given).filter (· ≠ "-")
  | _ => none

/-- Whether a request reads the standard input. -/
def Request.readsInput : Request → Bool
  | .parse given => (text? given).isNone && ((path? given).getD "-") == "-"
  | _ => false

/-- Reads what a request may lead to. A pipe is read for the input only. -/
def Request.surroundings (r : Request) : IO Surroundings := do
  let folder := (← IO.currentDir).fileName
  let stored ← (r.settingsPaths folder).filterM isStored
  let paths := stored ++ (r.inputPath?.filter (!stored.contains ·)).toList
  let files ← paths.mapM fun path => return (path, ← readFile path)
  let input ← if r.readsInput then (← IO.getStdin).readBinToEnd else pure .empty
  return {
    input, folder
    file := fun path => (files.lookup path).getD (.error .missing)
    isFile := stored.contains }

end Descent.CommandLine

open Descent.CommandLine in
/-- Runs the program and writes its report. -/
def main (words : List String) : IO UInt32 := do
  let surroundings ←
    match Request.read words with
    | .ok r => r.surroundings
    | .error _ => pure (.ofFolder ⟨[]⟩ .empty)
  let report := run surroundings words
  (← IO.getStdout).putStr (String.ofList report.output)
  (← IO.getStderr).putStr (String.ofList report.complaint)
  return report.status.toUInt32
