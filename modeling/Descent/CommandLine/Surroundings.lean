/-!
# What a run can read

A run reads files by their paths and may read the standard input. Settings are read from stored files
only, and not from pipes and devices. A folder that holds just some files answers for all paths that
lead to them.
-/

namespace Descent.CommandLine

/-- Why something cannot be read. -/
inductive ReadError
  | missing
  | isFolder
  | notFolder
  | nameTooLong
  /-- The bytes are no text. -/
  | notText
  /-- Any other reason, in words. -/
  | other (reason : String)
  deriving DecidableEq, Repr

/-- The reason in words. -/
def ReadError.message : ReadError → String
  | missing => "No such file or directory (os error 2)"
  | isFolder => "Is a directory (os error 21)"
  | notFolder => "Not a directory (os error 20)"
  | nameTooLong => "File name too long (os error 36)"
  | notText => "stream did not contain valid UTF-8"
  | other reason => reason

/-- What a run can read. -/
structure Surroundings where
  /-- The standard input. -/
  input : ByteArray
  /-- The content of what is at a path. -/
  file : String → Except ReadError ByteArray
  /-- Whether a file is stored at a path, and not a pipe or a device. -/
  isFile : String → Bool
  /-- The name of the folder that paths start from, if it has one. -/
  folder : Option String

/-- The text that bytes write. -/
def textOf (bytes : ByteArray) : Except ReadError (List Char) :=
  match String.fromUTF8? bytes with
  | some s => .ok s.toList
  | none => .error .notText

/-- The text of the file at a path. -/
def Surroundings.fileText (s : Surroundings) (path : String) : Except ReadError (List Char) := do
  textOf (← s.file path)

/-- The text of the standard input. -/
def Surroundings.inputText (s : Surroundings) : Except ReadError (List Char) := textOf s.input

/-- A folder with the files in it and in the folders below it. -/
structure Folder where
  /-- The names that lead to a file, and its content. -/
  files : List (List String × ByteArray)

namespace Folder

/-- A place in or above the folder. Of what is outside nothing is known, so it is empty here. -/
inductive Place
  /-- A folder inside, by the names that lead there. -/
  | inside (names : List String)
  /-- A folder outside. -/
  | outside
  deriving DecidableEq, Repr

/-- Names are at most this long, in bytes. -/
def maxName : Nat := 255

/-- Paths are shorter than this, in bytes. -/
def pathLimit : Nat := 4096

/-- The folder above a place. -/
def above : Place → Place
  | .inside [] => .outside
  | .inside names => .inside names.dropLast
  | .outside => .outside

/-- Whether some names lead to a folder. -/
def isFolder (f : Folder) (names : List String) : Bool :=
  f.files.any fun (path, _) => names.length < path.length && path.take names.length == names

/-- Follows the rest of a path. Empty names and points stay where they are. -/
def follow (f : Folder) : Place → List String → Except ReadError ByteArray
  | _, [] => .error .isFolder
  | place, name :: rest =>
    if name = "" ∨ name = "." then f.follow place rest
    else if name = ".." then f.follow (above place) rest
    else if maxName < name.utf8ByteSize then .error .nameTooLong
    else
      match place with
      | .outside => .error .missing
      | .inside names =>
        let names := names ++ [name]
        match f.files.lookup names with
        | some bytes => if rest.isEmpty then .ok bytes else .error .notFolder
        | none => if f.isFolder names then f.follow (.inside names) rest else .error .missing

/-- The content of the file at a path. -/
def read (f : Folder) (path : String) : Except ReadError ByteArray :=
  if path = "" then .error .missing
  else if pathLimit ≤ path.utf8ByteSize then .error .nameTooLong
  else
    match path.splitOn "/" with
    | "" :: rest => f.follow .outside rest
    | names => f.follow (.inside []) names

/-- A folder that holds files at the given paths. -/
def ofFiles (files : List (String × ByteArray)) : Folder :=
  ⟨files.map fun (path, bytes) => (path.splitOn "/", bytes)⟩

end Folder

/-- What a run can read in a folder. -/
def Surroundings.ofFolder (f : Folder) (input : ByteArray) : Surroundings where
  input := input
  file := f.read
  isFile path := (f.read path).toBool
  folder := none

end Descent.CommandLine
