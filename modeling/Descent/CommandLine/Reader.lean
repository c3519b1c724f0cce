import Descent.CommandLine.Argument

/-!
# Reading command lines

The words of a command line are read one after the other. An option that stands apart from its value
waits for it, and what is given is looked at only when the next argument, or the end, shows that it is
complete: so of several mistakes the first one counts, except that a word that looks like an option is
never taken for a value.
-/

namespace Descent.CommandLine

/-- What a command line asks for. -/
inductive Request
  /-- To show how a command is used, or how the program is. -/
  | help (verb : Option Verb)
  /-- To show the version. -/
  | version
  /-- To list the grammars. -/
  | grammars
  /-- To run a grammar, with the arguments that are given, first to last. -/
  | parse (given : List Given)
  deriving DecidableEq, Repr

/-- Why reading ends before the last word. -/
inductive Stop
  /-- An option asks for something else at once. -/
  | instead (r : Request)
  | refused (e : UsageError)
  deriving DecidableEq, Repr

/-- Where reading stands. -/
structure Reader where
  /-- The command whose arguments are read, or none before any command. -/
  verb : Option Verb
  /-- What is given, first to last. -/
  given : List Given
  /-- An argument that is not complete yet, and its value as far as that is there. -/
  pending : Option (Argument × Option String)
  /-- Whether all further words are no options. -/
  optionsEnded : Bool

namespace Reader

/-- The start of reading. -/
def start (verb : Option Verb) : Reader := ⟨verb, [], none, false⟩

/-- An argument with its value, if it accepts that. -/
def give (a : Argument) (value : String) : Except UsageError Given :=
  match a with
  | .path => .ok (.path value)
  | .text => .ok (.text value)
  | .grammar =>
    match Builtin.ofName? value with
    | some b => .ok (.grammar b)
    | none => .error (.unknownGrammar value)
  | .format => .ok (.format value)
  | .config => .ok (.config value)
  | .verbose | .help | .version => .ok .verbose

/-- Takes a complete argument. No argument is given twice. -/
def take (r : Reader) (a : Argument) (value : String) : Except Stop Reader :=
  if r.given.any fun g => g.argument = a then .error (.refused (.repeated a))
  else
    match give a value with
    | .ok g => .ok { r with given := r.given ++ [g] }
    | .error e => .error (.refused e)

/-- Takes the argument that was waiting to be complete. -/
def settle (r : Reader) : Except Stop Reader :=
  match r.pending with
  | none => .ok r
  | some (a, some value) => { r with pending := none }.take a value
  | some (a, none) => .error (.refused (.missingValue a))

/-- Takes an option that has no value. -/
def takeFlag (r : Reader) (a : Argument) : Except Stop Reader := do
  let r ← r.settle
  match a with
  | .help => .error (.instead (.help r.verb))
  | .version => .error (.instead .version)
  | a => r.take a ""

/-- Takes an option whose value is attached to it. -/
def takeAttached (r : Reader) (a : Argument) (value : String) : Except Stop Reader := do
  (← r.settle).take a value

/-- Waits for the value of an option. -/
def await (r : Reader) (a : Argument) : Except Stop Reader := do
  return { ← r.settle with pending := some (a, none) }

/-- Takes an option that is written out, from what stands after its two hyphens. -/
def takeLong (r : Reader) (body : List Char) : Except Stop Reader :=
  let name := String.ofList (body.takeWhile (· != '='))
  let value? :=
    match body.dropWhile (· != '=') with
    | _ :: value => some (String.ofList value)
    | [] => none
  match (Argument.options r.verb).find? fun a => a.word = name, value? with
  | none, _ => .error (.refused (.unexpected ("--" ++ name)))
  | some a, some value =>
    if a.takesValue then r.takeAttached a value else .error (.refused (.unneededValue a value))
  | some a, none => if a.takesValue then r.await a else r.takeFlag a

/-- Takes options that are single letters, from what stands after their hyphen. The rest of the word
after an option with a value is its value, and may stand after an equals sign. -/
def takeLetters (r : Reader) : List Char → Except Stop Reader
  | [] => .ok r
  | c :: rest =>
    match (Argument.options r.verb).find? fun a => a.letter? = some c with
    | none => .error (.refused (.unexpected (String.ofList ['-', c])))
    | some a =>
      if a.takesValue then
        match rest with
        | [] => r.await a
        | '=' :: value => r.takeAttached a (String.ofList value)
        | value => r.takeAttached a (String.ofList value)
      else do (← r.takeFlag a).takeLetters rest

/-- Whether one more word can be a path. -/
def expectsPath (r : Reader) : Bool :=
  r.verb = some .parse && !(r.given.any fun g => g.argument = .path) &&
    !(r.pending.any fun (a, _) => a = .path)

/-- Takes a word that is no option. -/
def takeWord (r : Reader) (word : String) : Except Stop Reader :=
  match r.pending, r.optionsEnded with
  | some (a, none), false => .ok { r with pending := some (a, some word) }
  | _, _ =>
    if r.expectsPath then do return { ← r.settle with pending := some (.path, some word) }
    else .error (.refused (.unexpected word))

/-- Takes the next word. -/
def step (r : Reader) (word : String) : Except Stop Reader :=
  if r.optionsEnded then r.takeWord word
  else
    match word.toList with
    | ['-', '-'] => .ok { r with optionsEnded := true }
    | '-' :: '-' :: body => r.takeLong body
    | '-' :: c :: body => r.takeLetters (c :: body)
    | _ => r.takeWord word

/-- Takes all words of a command. -/
def steps (r : Reader) (words : List String) : Except Stop Reader := words.foldlM step r

/-- Two arguments that do not go together, in the order in which they were given. -/
def conflict? (given : List Given) : Option (Argument × Argument) :=
  match (given.map Given.argument).filter fun a => a = .path ∨ a = .text with
  | [a, b] => some (a, b)
  | _ => none

/-- What was given, once there are no more words. -/
def finish (r : Reader) : Except Stop (List Given) := do
  let r ← r.settle
  match conflict? r.given with
  | some (a, b) => .error (.refused (.conflict a b))
  | none => .ok r.given

end Reader

namespace Request

/-- Reads the words after the command that asks for help. -/
def ofHelp : List String → Except Stop Request
  | [] => .ok (.help none)
  | "help" :: rest => ofHelp rest
  | word :: rest =>
    match Verb.ofWord? word, rest with
    | some verb, [] => .ok (.help (some verb))
    | some _, other :: _ => .error (.refused (.unknownCommand other))
    | none, _ => .error (.refused (.unknownCommand word))

/-- Reads the words of a command. -/
def ofVerb (verb : Verb) (words : List String) : Except Stop Request := do
  let given ← (← (Reader.start (some verb)).steps words).finish
  match verb with
  | .parse => return .parse given
  | .grammars => return .grammars

/-- Reads a whole command line. In front of the command stand only options that end the reading. -/
def ofWords (r : Reader) : List String → Except Stop Request
  | [] => .error (.refused .nothing)
  | word :: rest =>
    if r.optionsEnded then
      if word = "help" ∨ (Verb.ofWord? word).isSome then .error (.refused (.unexpected word))
      else .error (.refused (.unknownCommand word))
    else
      match Verb.ofWord? word with
      | some verb => ofVerb verb rest
      | none =>
        if word = "help" then ofHelp rest
        else
          match word.toList with
          | '-' :: _ :: _ => do ofWords (← r.step word) rest
          | _ => .error (.refused (.unknownCommand word))

/-- What a command line asks for, or why it is not understood. -/
def read (words : List String) : Except UsageError Request :=
  match ofWords (Reader.start none) words with
  | .ok r => .ok r
  | .error (.instead r) => .ok r
  | .error (.refused e) => .error e

end Request

end Descent.CommandLine
