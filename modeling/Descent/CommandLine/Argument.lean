import Descent.Builtin

/-!
# Arguments

What may stand on the command line, and what is said about command lines that cannot be understood.
-/

namespace Descent.CommandLine

/-- A command. -/
inductive Verb
  /-- Runs a grammar over some input. -/
  | parse
  /-- Lists the grammars. -/
  | grammars
  deriving DecidableEq, Inhabited, Repr

/-- The word for a command. -/
def Verb.word : Verb → String
  | parse => "parse"
  | grammars => "grammars"

/-- All commands. -/
def Verb.all : List Verb := [.parse, .grammars]

/-- The command of the given word. -/
def Verb.ofWord? (word : String) : Option Verb := all.find? (·.word = word)

/-- An argument that a command knows. -/
inductive Argument
  | path | text | grammar | format | config | verbose | help | version
  deriving DecidableEq, Inhabited, Repr

namespace Argument

/-- The word for an argument. -/
def word : Argument → String
  | path => "path"
  | text => "text"
  | grammar => "grammar"
  | format => "format"
  | config => "config"
  | verbose => "verbose"
  | help => "help"
  | version => "version"

/-- The letter for an argument that has one. -/
def letter? : Argument → Option Char
  | path => none
  | text => some 't'
  | grammar => some 'g'
  | format => some 'f'
  | config => some 'c'
  | verbose => some 'v'
  | help => some 'h'
  | version => some 'V'

/-- Whether a value belongs to the argument. -/
def takesValue : Argument → Bool
  | verbose | help | version => false
  | _ => true

/-- How complaints speak of an argument. -/
def label (a : Argument) : String :=
  if a = path then "[path]"
  else if a.takesValue then "--" ++ a.word ++ " <" ++ a.word ++ ">"
  else "--" ++ a.word

/-- The options of a command, or those in front of any. -/
def options : Option Verb → List Argument
  | none => [help, version]
  | some .parse => [text, grammar, format, config, verbose, help]
  | some .grammars => [help]

end Argument

/-- An argument with what it was given. -/
inductive Given
  | path (p : String)
  | text (t : String)
  | grammar (b : Builtin)
  | format (name : String)
  | config (name : String)
  | verbose
  deriving DecidableEq, Repr

/-- The argument that was given. -/
def Given.argument : Given → Argument
  | path _ => .path
  | text _ => .text
  | grammar _ => .grammar
  | format _ => .format
  | config _ => .config
  | verbose => .verbose

/-- Why a command line is not understood. -/
inductive UsageError
  /-- There is nothing to do. -/
  | nothing
  /-- A word that is no command. -/
  | unknownCommand (word : String)
  /-- A word or an option that has no meaning where it stands. -/
  | unexpected (word : String)
  /-- An option without its value. -/
  | missingValue (a : Argument)
  /-- An option with a value that it does not take. -/
  | unneededValue (a : Argument) (value : String)
  /-- An argument that was given before. -/
  | repeated (a : Argument)
  /-- A name that no grammar has. -/
  | unknownGrammar (name : String)
  /-- Two arguments that do not go together. -/
  | conflict (first second : Argument)
  deriving DecidableEq, Repr

/-- What the program is for. -/
def purpose : String := "Run parsnip's built-in grammars over text"

/-- The complaint in words. Where nothing was asked for, it says what could be. -/
def UsageError.message : UsageError → String
  | nothing => purpose
  | unknownCommand word => "error: unrecognized subcommand '" ++ word ++ "'"
  | unexpected word => "error: unexpected argument '" ++ word ++ "' found"
  | missingValue a =>
    "error: a value is required for '" ++ a.label ++ "' but none was supplied"
  | unneededValue a value =>
    "error: unexpected value '" ++ value ++ "' for '" ++ a.label ++ "' found; no more were expected"
  | repeated a => "error: the argument '" ++ a.label ++ "' cannot be used multiple times"
  | unknownGrammar name =>
    "error: invalid value '" ++ name ++ "' for '" ++ Argument.grammar.label ++ "': " ++
      Builtin.unknownMessage name
  | conflict first second =>
    "error: the argument '" ++ first.label ++ "' cannot be used with '" ++ second.label ++ "'"

end Descent.CommandLine
