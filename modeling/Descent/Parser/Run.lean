import Descent.Parser.Step
import Descent.Store

/-!
# Running parsers

The meaning of a parser is built from the meanings of its parts, given what a call of a rule means.
The rules of a store call each other to any depth, so the meaning of a call is given up to a depth,
and a run is granted more depth than any rule can use that takes something before it calls itself.
-/

namespace Descent

namespace Parser

/-- The step that a parser stands for, when `call` says what rules do and `limit` bounds every
repetition. -/
def meaning (limit : Nat) (call : RuleId → Step) : Parser → Step
  | eof, t => Step.quiet Step.eof t
  | empty, t => Step.quiet (Outcome.success []) t
  | whitespace, t => Step.quiet (Step.span fun c => c = ' ' ∨ c = '\n' ∨ c = '\t') t
  | anyLetter, t => Step.quiet (Step.char Char.isAlpha) t
  | anyNumber, t => Step.quiet (Step.char Char.isDigit) t
  | one c, t => Step.quiet (Step.char (· = c)) t
  | literal text, t => Step.quiet (Step.literal text) t
  | pattern p, t => Step.quiet (Step.found p.find) t
  | anyChar chars, t => Step.quiet (Step.char fun c => chars.contains c) t
  | anyCharBut chars, t => Step.quiet (Step.char fun c => !chars.contains c) t
  | many0 body, t => Step.many0 limit (body.meaning limit call) t
  | many1 body, t => Step.many1 limit (body.meaning limit call) t
  | exactly count body, t => Step.exactly count (body.meaning limit call) t
  | between inner opening closing, t =>
    Step.between (inner.meaning limit call) (opening.meaning limit call)
      (closing.meaning limit call) t
  | orElse a b, t => Step.orElse (a.meaning limit call) (b.meaning limit call) t
  | andThen a b, t => Step.sequence (· ++ ·) (a.meaning limit call) (b.meaning limit call) t
  | thenOptional a b, t => Step.thenOptional (a.meaning limit call) (b.meaning limit call) t
  | optionalThen a b, t => Step.optionalThen (a.meaning limit call) (b.meaning limit call) t
  | thenIgnore a b, t =>
    Step.sequence (fun matched _ => matched) (a.meaning limit call) (b.meaning limit call) t
  | ignoreThen a b, t =>
    Step.sequence (fun _ matched => matched) (a.meaning limit call) (b.meaning limit call) t
  | named _ body, t => body.meaning limit call t
  | handmade _ run, t => Step.quiet run t
  | guarded objection body, t => Step.guarded objection (body.meaning limit call) t
  | reference _ rule, t => call rule t
  | unresolved _, t => Step.quiet Outcome.failure t
  | entry _ rule, t => call rule t

end Parser

namespace Store

/-- What a call of a rule does, when `run` says what parsers do. A rule whose table was dropped fails
with a warning; one whose table has no such rule, or none yet, fails. -/
def call (s : Store) (run : Parser → Step) (id : RuleId) : Step := fun t =>
  match s.table id.table with
  | .dropped => some ⟨.failure t, [.deadReference id.slot]⟩
  | .forming => some ⟨.failure t, []⟩
  | .ready rules =>
    match rules[id.slot]? with
    | none => some ⟨.failure t, []⟩
    | some rule => Step.rule rule.name (run rule.body) t

/-- What a parser does when calls of rules nest at most `depth` deep and no repetition goes on for
longer than that. -/
def step (s : Store) : Nat → Parser → Step
  | 0, p, t => p.meaning 0 (fun _ _ => none) t
  | depth + 1, p, t => p.meaning (depth + 1) (s.call (s.step depth)) t

/-- The depth granted to a run: for each byte of the text and two more, one call of every rule, and
four thousand million others. -/
def depthFor (s : Store) (t : Text) : Nat := (s.ruleCount + 0x100000000) * (t.size + 2)

/-- Runs a parser. A run that is still not at its end at the depth granted, as that of a rule that
calls itself on the same text, has no result. -/
def run (s : Store) (p : Parser) (t : Text) : Option Run := s.step (s.depthFor t) p t

end Store

end Descent
