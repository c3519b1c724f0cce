import Descent.Grammar.Build

/-!
# JSON documents

A grammar for a complete document: one value, with blanks around it and nothing else. It reports the
text and makes no values of it. Each element of an array or object is read once; a comma that no
element follows is left over, so that the closing bracket does not match. Arrays and objects that nest
too deeply are refused before anything is read.
-/

namespace Descent.Json

/-- How deep arrays and objects may nest. -/
def maxDepth : Nat := 128

/-- What is known about nesting at a place in a document. -/
structure Nesting where
  /-- How many brackets are open. -/
  depth : Nat
  /-- How many were open at most. -/
  deepest : Nat
  /-- Whether the place is inside a string. -/
  inString : Bool
  /-- Whether it follows a backslash in a string. -/
  escaped : Bool
  deriving DecidableEq, Repr

namespace Nesting

/-- At the start nothing is open. -/
def start : Nesting := ⟨0, 0, false, false⟩

/-- What is known after one more character. -/
def advance (n : Nesting) (c : Char) : Nesting :=
  if n.inString then
    if n.escaped then { n with escaped := false }
    else if c = '\\' then { n with escaped := true }
    else if c = '"' then { n with inString := false }
    else n
  else if c = '"' then { n with inString := true }
  else if c = '[' ∨ c = '\x7b' then
    { n with depth := n.depth + 1, deepest := max n.deepest (n.depth + 1) }
  else if c = ']' ∨ c = '\x7d' then { n with depth := n.depth - 1 }
  else n

end Nesting

/-- How deep brackets outside strings nest. -/
def nestingDepth (chars : List Char) : Nat := (chars.foldl Nesting.advance .start).deepest

/-- The objection to a document that nests too deeply. -/
def tooDeep (t : Text) : Option Event :=
  let depth := nestingDepth t.chars
  if maxDepth < depth then some (.nestedTooDeeply depth maxDepth) else none

/-- The characters that can follow a backslash, apart from `u`. -/
def escapes : List Char := ['"', '\\', '/', 'b', 'f', 'n', 'r', 't']

/-- The characters that cannot stand for themselves in a string. -/
def unescapable : List Char := ['"', '\\'] ++ (List.range 0x20).map Char.ofNat

/-- Hexadecimal digits. -/
def hexDigits : List Char := "0123456789abcdefABCDEF".toList

/-- The rules of the grammar. -/
def declarations : List (Declaration σ) :=
  [⟨"ws", fun _ => return .many1 (.anyChar [' ', '\t', '\n', '\r'])⟩,
   ⟨"bopen", fun r => return .thenOptional (.one '\x7b') (← r.rule "ws")⟩,
   ⟨"bclose", fun r => return .optionalThen (← r.rule "ws") (.one '\x7d')⟩,
   ⟨"sopen", fun r => return .thenOptional (.one '[') (← r.rule "ws")⟩,
   ⟨"sclose", fun r => return .optionalThen (← r.rule "ws") (.one ']')⟩,
   ⟨"colon", fun r =>
     return .thenOptional (.optionalThen (← r.rule "ws") (.one ':')) (← r.rule "ws")⟩,
   ⟨"comma", fun r =>
     return .thenOptional (.optionalThen (← r.rule "ws") (.one ',')) (← r.rule "ws")⟩,
   ⟨"quote", fun _ => return .one '"'⟩,
   ⟨"true", fun _ => return .literal "true".toList⟩,
   ⟨"false", fun _ => return .literal "false".toList⟩,
   ⟨"null", fun _ => return .literal "null".toList⟩,
   ⟨"hexdigit", fun _ => return .anyChar hexDigits⟩,
   ⟨"unicode", fun r => return .one 'u' >>> .exactly 4 (← r.rule "hexdigit")⟩,
   ⟨"escaped", fun r => return .one '\\' >>> (.anyChar escapes ||| (← r.rule "unicode"))⟩,
   ⟨"unescaped", fun _ => return .anyCharBut unescapable⟩,
   ⟨"string_char", fun r => return (← r.rule "unescaped") ||| (← r.rule "escaped")⟩,
   ⟨"string", fun r =>
     return .between (.many0 (← r.rule "string_char")) (← r.rule "quote") (← r.rule "quote")⟩,
   ⟨"digits", fun _ => return .many1 .anyNumber⟩,
   ⟨"integer", fun r => return .one '0' ||| (← r.rule "digits")⟩,
   ⟨"fraction", fun r => return .one '.' >>> (← r.rule "digits")⟩,
   ⟨"exponent", fun r =>
     return .anyChar ['e', 'E'] >>> .optionalThen (.anyChar ['+', '-']) (← r.rule "digits")⟩,
   ⟨"number", fun r =>
     return .optionalThen (.one '-')
       (.thenOptional (.thenOptional (← r.rule "integer") (← r.rule "fraction"))
         (← r.rule "exponent"))⟩,
   ⟨"elements", fun r =>
     return (← r.rule "value") >>> .many0 ((← r.rule "comma") >>> (← r.rule "value"))⟩,
   ⟨"array", fun r =>
     return .between ((← r.rule "elements") ||| .empty) (← r.rule "sopen") (← r.rule "sclose")⟩,
   ⟨"pair", fun r =>
     return (← r.rule "string") >>> (← r.rule "colon") >>> (← r.rule "value")⟩,
   ⟨"members", fun r =>
     return (← r.rule "pair") >>> .many0 ((← r.rule "comma") >>> (← r.rule "pair"))⟩,
   ⟨"object", fun r =>
     return .between ((← r.rule "members") ||| .empty) (← r.rule "bopen") (← r.rule "bclose")⟩,
   ⟨"value", fun r =>
     return (← r.rule "string") ||| (← r.rule "number") ||| (← r.rule "object") |||
       (← r.rule "array") ||| (← r.rule "true") ||| (← r.rule "false") ||| (← r.rule "null")⟩,
   ⟨"document", fun r =>
     return .guarded tooDeep
       (.thenOptional (.optionalThen (← r.rule "ws") (← r.rule "value")) (← r.rule "ws")
         >>> .eof)⟩]

/-- Builds the grammar. -/
def grammar : Build σ (Except GrammarError Parser) := Grammar.build declarations "document"

end Descent.Json
