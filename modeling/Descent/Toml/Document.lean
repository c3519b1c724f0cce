import Descent.Toml.Number
import Descent.Toml.Table
import Descent.Toml.Text

/-!
# TOML documents

Reads a whole document into the table it describes, or not at all. Whatever the document gets wrong,
nothing of it counts.
-/

namespace Descent.Toml

/-- Lists and tables in braces stand at most this deep in each other. -/
def maxNesting : Nat := 79

/-- A key has at most this many parts. -/
def maxParts : Nat := 79

/-- A key with its parts, and what follows the blanks after it. -/
def path? (chars : List Char) : Option (List String × List Char) := do
  let (parts, rest) ← key? (chars.length + 1) chars
  if parts.length ≤ maxParts then some (parts, rest) else none

mutual

/-- A value, and what follows. `depth` counts how much deeper values may still be nested. -/
def valueWithin? : Nat → Nat → List Char → Option (Datum × List Char)
  | 0, _, _ => none
  | fuel + 1, depth, chars =>
    match chars with
    | '[' :: rest =>
      if depth = 0 then none
      else (elements? fuel (depth - 1) rest).map fun (items, rest) => (.list items, rest)
    | '\x7b' :: rest =>
      if depth = 0 then none
      else
        match skipBlanks rest with
        | '\x7d' :: rest => some (.table [], rest)
        | rest =>
          (pairs? fuel (depth - 1) .empty rest).map fun (t, rest) => (t.toDatum, rest)
    | 't' :: 'r' :: 'u' :: 'e' :: rest => some (.scalar (.bool true), rest)
    | 'f' :: 'a' :: 'l' :: 's' :: 'e' :: rest => some (.scalar (.bool false), rest)
    | '"' :: _ | '\x27' :: _ =>
      (string? chars).map fun (s, rest) => (.scalar (.text (String.ofList s)), rest)
    | chars => (moment? chars).or (number? chars)

/-- The elements of a list up to its closing bracket, and what follows that. A comma may stand after the
last one. -/
def elements? : Nat → Nat → List Char → Option (List Datum × List Char)
  | 0, _, _ => none
  | fuel + 1, depth, chars =>
    match skipLines (chars.length + 1) chars with
    | ']' :: rest => some ([], rest)
    | rest =>
      match valueWithin? fuel depth rest with
      | none => none
      | some (d, rest) =>
        match skipLines (rest.length + 1) rest with
        | ']' :: rest => some ([d], rest)
        | ',' :: rest => (elements? fuel depth rest).map fun (items, rest) => (d :: items, rest)
        | _ => none

/-- The pairs of a table in braces up to the closing one, and what follows that. -/
def pairs? : Nat → Nat → Table → List Char → Option (Table × List Char)
  | 0, _, _, _ => none
  | fuel + 1, depth, t, chars =>
    match path? chars with
    | some (key, '=' :: rest) =>
      match valueWithin? fuel depth (skipBlanks rest) with
      | none => none
      | some (d, rest) =>
        match t.define? key d with
        | none => none
        | some t =>
          match skipBlanks rest with
          | '\x7d' :: rest => some (t, rest)
          | ',' :: rest => pairs? fuel depth t rest
          | _ => none
    | _ => none

end

/-- A value, and what follows. Every two rounds take at least one character. -/
def value? (chars : List Char) : Option (Datum × List Char) :=
  valueWithin? (2 * chars.length + 2) maxNesting chars

/-- Reads the lines of a document. `header` is the path of the table that is open. -/
def lines? : Nat → List String → Table → List Char → Option Table
  | 0, _, _, _ => none
  | fuel + 1, header, root, chars =>
    match skipBlanks chars with
    | [] => some root
    | '[' :: '[' :: rest => do
      let (path, rest) ← path? rest
      let rest ← match rest with
        | ']' :: ']' :: rest => lineRest? rest
        | _ => none
      lines? fuel path (← root.openElement? path) rest
    | '[' :: rest => do
      let (path, rest) ← path? rest
      let rest ← match rest with
        | ']' :: rest => lineRest? rest
        | _ => none
      lines? fuel path (← root.openTable? path) rest
    | rest =>
      match lineRest? rest with
      | some rest => lines? fuel header root rest
      | none => do
        let (key, rest) ← path? rest
        let rest ← match rest with
          | '=' :: rest => some (skipBlanks rest)
          | _ => none
        let (d, rest) ← value? rest
        let rest ← lineRest? rest
        lines? fuel header (← root.alter? false (·.define? key d) header) rest

/-- The text without a byte order mark at its start. -/
def dropMark : List Char → List Char
  | '\uFEFF' :: rest => rest
  | rest => rest

/-- The entries of the document, if the text is one. -/
def document? (text : List Char) : Option (List (String × Datum)) :=
  (lines? (text.length + 1) [] .empty (dropMark text)).map fun t => Table.toEntries t.entries

end Descent.Toml
