import Descent.Parser.Run

/-!
# Expectations

What somebody who tries out a parser expects of it: that it accepts a text and leaves exactly this
rest, or matches exactly this text as well, or that it rejects the text and hands it back untouched.
-/

namespace Descent

/-- What is expected of a run. -/
inductive Expectation
  /-- Success that leaves `rest`. -/
  | parses (rest : List Char)
  /-- Success that matches `matched` and leaves `rest`. -/
  | parsesMatching (matched rest : List Char)
  /-- Failure that hands back the whole text. -/
  | rejects
  deriving DecidableEq, Repr

/-- Why an expectation is not met. -/
inductive Complaint
  /-- The parser failed. -/
  | notParsed (outcome : Outcome)
  /-- The parser left something else. -/
  | wrongRest (actual expected : List Char)
  /-- The parser matched something else. -/
  | wrongMatch (actual expected : List Char)
  /-- The parser did not fail with the text untouched. -/
  | notRejected (outcome : Outcome)
  deriving DecidableEq

namespace Expectation

/-- Whether an outcome meets the expectation, and why it does not. -/
def check (e : Expectation) (input : Text) (o : Outcome) : Except Complaint Unit :=
  let accepts := fun (rest : List Char) =>
    if !o.ok then .error (.notParsed o)
    else if o.remaining.chars ≠ rest then .error (.wrongRest o.remaining.chars rest)
    else Except.ok ()
  match e with
  | parses rest => accepts rest
  | parsesMatching matched rest => do
    accepts rest
    if o.matched ≠ matched then .error (.wrongMatch o.matched matched)
  | rejects => if o = .failure input then .ok () else .error (.notRejected o)

end Expectation

namespace Complaint

/-- The wording of two values that should be equal. -/
def unequal (reason left right : String) : String :=
  "assertion \x60left == right\x60 failed: " ++ reason ++ "\n  left: " ++ left ++
    "\n right: " ++ right

/-- The wording of the complaint about the parser of the given name on the given input. -/
def message (name : String) (input : Text) (c : Complaint) : String :=
  let quoted := fun (chars : List Char) => String.ofList (Quoted.text chars)
  match c with
  | notParsed o => name ++ " should parse " ++ quoted input.chars ++ ", got " ++ o.describe
  | wrongRest actual expected =>
    unequal (name ++ " left the wrong remainder for " ++ quoted input.chars)
      (quoted actual) (quoted expected)
  | wrongMatch actual expected =>
    unequal (name ++ " reported the wrong match for " ++ quoted input.chars)
      (quoted actual) (quoted expected)
  | notRejected o =>
    unequal (name ++ " should reject " ++ quoted input.chars ++ " and leave it untouched")
      o.describe (Outcome.failure input).describe

end Complaint

end Descent
