import Descent.Number.Binary
import Descent.Text.Quoted

/-!
# Data

Values as documents in general formats hold them, and how a value that is of no use where it stands is
spoken of.
-/

namespace Descent

/-- A value that holds no others. -/
inductive Scalar
  | null
  | bool (b : Bool)
  | int (n : Int)
  | float (x : Binary)
  | text (s : String)
  deriving DecidableEq, Inhabited, Repr

/-- A value of a document. -/
inductive Datum
  | scalar (s : Scalar)
  | list (items : List Datum)
  | table (entries : List (String × Datum))
  deriving Inhabited

/-- A truth value as a word. -/
def boolWord (b : Bool) : String := if b then "true" else "false"

/-- What a value is called when another kind of value is expected; `nothing` is the word for null. -/
def Scalar.kind (nothing : String) : Scalar → String
  | null => nothing
  | bool b => "boolean \x60" ++ boolWord b ++ "\x60"
  | int n => "integer \x60" ++ toString n ++ "\x60"
  | float x => "floating point \x60" ++ x.toPointText ++ "\x60"
  | text s => "string " ++ Quoted.string s

/-- What a value is called when another kind of value is expected; `nothing` is the word for null. -/
def Datum.kind (nothing : String) : Datum → String
  | scalar s => s.kind nothing
  | list _ => "sequence"
  | table _ => "map"

end Descent
