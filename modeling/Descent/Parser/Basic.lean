import Descent.Event
import Descent.Outcome
import Descent.Pattern.Engine
import Descent.Text.Quoted

/-!
# Parsers

A parser is an expression: a primitive, a combination of smaller parsers, a reference to a rule of a
grammar, or a function written by hand. Its name is read off the expression, so that it tells how the
parser was put together.
-/

namespace Descent

/-- A rule: the number of its table in the store, and its place of declaration there. -/
structure RuleId where
  table : Nat
  slot : Nat
  deriving DecidableEq, Inhabited, Repr

/-- A parser. -/
inductive Parser
  /-- Nothing, where nothing is left. -/
  | eof
  /-- Nothing, anywhere. -/
  | empty
  /-- One or more spaces, tabs or line feeds. -/
  | whitespace
  /-- One ASCII letter. -/
  | anyLetter
  /-- One ASCII digit. -/
  | anyNumber
  /-- One given character. -/
  | one (c : Char)
  /-- A given text. -/
  | literal (text : List Char)
  /-- The first match of a pattern. -/
  | pattern (p : Pattern)
  /-- One of the given characters. -/
  | anyChar (chars : List Char)
  /-- One character that is not among those given. -/
  | anyCharBut (chars : List Char)
  /-- Any number of times in a row. -/
  | many0 (body : Parser)
  /-- At least once, any number of times in a row. -/
  | many1 (body : Parser)
  /-- A fixed number of times in a row. -/
  | exactly (count : Nat) (body : Parser)
  /-- Something between an opening and a closing parser. -/
  | between (inner opening closing : Parser)
  /-- The first of two, or else the second. -/
  | orElse (a b : Parser)
  /-- One after the other. -/
  | andThen (a b : Parser)
  /-- The first, and the second if it matches. -/
  | thenOptional (a b : Parser)
  /-- The first if it matches, and the second. -/
  | optionalThen (a b : Parser)
  /-- Both, keeping the match of the first. -/
  | thenIgnore (a b : Parser)
  /-- Both, keeping the match of the second. -/
  | ignoreThen (a b : Parser)
  /-- The same parser under another name. -/
  | named (name : String) (body : Parser)
  /-- A function written by hand. -/
  | handmade (name : String) (run : Text → Outcome)
  /-- The body, unless the whole input raises an objection, which is reported. -/
  | guarded (objection : Text → Option Event) (body : Parser)
  /-- Runs a rule as long as its table is there, without keeping the table. -/
  | reference (name : String) (rule : RuleId)
  /-- Stands for a name that no rule has. -/
  | unresolved (name : String)
  /-- Runs the start rule of a grammar, and keeps its table. -/
  | entry (name : String) (rule : RuleId)
  deriving Inhabited

namespace Parser

/-- The characters in increasing order, each once. -/
def sortedChars (chars : List Char) : List Char :=
  (chars.mergeSort (· ≤ ·)).eraseReps

/-- The name under which the parser is shown. -/
def name : Parser → String
  | eof => "eof"
  | empty => "empty"
  | whitespace => "whitespace"
  | anyLetter => "anyLetter"
  | anyNumber => "anyNumber"
  | one c => String.ofList (Quoted.char c)
  | literal text => String.ofList (Quoted.text text)
  | pattern p => "/" ++ p.source ++ "/"
  | anyChar chars => "anyChar" ++ String.ofList (Quoted.text (sortedChars chars))
  | anyCharBut chars => "anyCharBut" ++ String.ofList (Quoted.text (sortedChars chars))
  | many0 body => "many0(" ++ body.name ++ ")"
  | many1 body => "many1(" ++ body.name ++ ")"
  | exactly count body => "exactly(" ++ Nat.repr count ++ ", " ++ body.name ++ ")"
  | between inner opening closing =>
    "between(" ++ inner.name ++ ", " ++ opening.name ++ ", " ++ closing.name ++ ")"
  | orElse a b => "(" ++ a.name ++ " | " ++ b.name ++ ")"
  | andThen a b => "(" ++ a.name ++ " >> " ++ b.name ++ ")"
  | thenOptional a b => "(" ++ a.name ++ " > " ++ b.name ++ ")"
  | optionalThen a b => "(" ++ a.name ++ " < " ++ b.name ++ ")"
  | thenIgnore a b => "(" ++ a.name ++ " >= " ++ b.name ++ ")"
  | ignoreThen a b => "(" ++ a.name ++ " <= " ++ b.name ++ ")"
  | named name _ => name
  | handmade name _ => name
  | guarded _ body => body.name
  | reference name _ => name
  | unresolved name => name
  | entry name _ => name

/-- The parser as it is shown to people. -/
def describe (p : Parser) : String := "Parser(" ++ Quoted.string p.name ++ ")"

/-- A function written by hand that bears no name of its own. -/
def satisfy (run : Text → Outcome) : Parser := handmade "satisfy" run

/-- The tables that the parser keeps: those of the grammars whose entries it holds. -/
def kept : Parser → List Nat
  | many0 body => body.kept
  | many1 body => body.kept
  | exactly _ body => body.kept
  | between inner opening closing => inner.kept ++ opening.kept ++ closing.kept
  | orElse a b => a.kept ++ b.kept
  | andThen a b => a.kept ++ b.kept
  | thenOptional a b => a.kept ++ b.kept
  | optionalThen a b => a.kept ++ b.kept
  | thenIgnore a b => a.kept ++ b.kept
  | ignoreThen a b => a.kept ++ b.kept
  | named _ body => body.kept
  | guarded _ body => body.kept
  | entry _ rule => [rule.table]
  | _ => []

end Parser

/-- The outcome as it is shown to people. -/
def Outcome.describe (o : Outcome) : String :=
  "ParseResult \x7b ok: " ++ (if o.ok then "true" else "false") ++
    ", matched: " ++ String.ofList (Quoted.text o.matched) ++
    ", remaining: " ++ String.ofList (Quoted.text o.remaining.chars) ++ " \x7d"

end Descent
