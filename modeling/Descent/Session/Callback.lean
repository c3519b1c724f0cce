import Descent.Outcome

/-!
# Functions written by hand

Samples of functions that a caller can make parsers of. Some break the rules of the game: they fail
with something else than their input, or leave something that their input does not end with.
-/

namespace Descent.Callback

/-- Takes everything if it is the given text, and matches it. -/
def equals (text : List Char) (t : Text) : Outcome :=
  if t.chars = text then .success text (.ofList []) else .failure t

/-- Reports the same outcome whatever there is to read. -/
def constant (ok : Bool) (matched : List Char) (rest : Text) (_ : Text) : Outcome :=
  .ofParts ok matched rest

/-- Takes one character and matches nothing. -/
def skip (t : Text) : Outcome :=
  match t.uncons? with
  | some (_, rest) => .success [] rest
  | none => .failure t

/-- Takes one character and matches it in upper case, as far as ASCII goes. -/
def upper (t : Text) : Outcome :=
  match t.uncons? with
  | some (c, rest) => .success [c.toUpper] rest
  | none => .failure t

/-- Fails, and hands back all but the first character. -/
def failTail (t : Text) : Outcome :=
  match t.uncons? with
  | some (_, rest) => .failure rest
  | none => .failure t

end Descent.Callback
