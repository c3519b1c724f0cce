/-!
# Events

What building and running grammars reports besides the outcome. A log is the list of events in the
order in which they happened.
-/

namespace Descent

/-- Something worth reporting about a build or a run. Sizes are in bytes. -/
inductive Event
  /-- A grammar with this many rules was built, starting at `start`. -/
  | grammarBuilt (rules : Nat) (start : String)
  /-- A rule starts on `remaining` bytes. -/
  | enterRule (rule : String) (remaining : Nat)
  /-- A rule has ended. -/
  | exitRule (rule : String) (ok : Bool) (consumed : Nat)
  /-- The rule declared at place `slot` was called after its table was given up. -/
  | deadReference (slot : Nat)
  /-- A document was refused for nesting `depth` deep where `limit` is allowed. -/
  | nestedTooDeeply (depth limit : Nat)
  deriving DecidableEq, Inhabited, Repr

/-- Events, first to last. -/
abbrev Log := List Event

/-- How serious an event is. -/
inductive Severity
  | trace | debug | warn
  deriving DecidableEq, Repr

/-- The written name of a severity. -/
def Severity.name : Severity → String
  | trace => "TRACE"
  | debug => "DEBUG"
  | warn => "WARN"

/-- The value of one field of an event. -/
inductive Field
  | count (n : Nat)
  | flag (b : Bool)
  | text (s : String)
  deriving DecidableEq, Repr

namespace Event

/-- How serious the event is. -/
def severity : Event → Severity
  | grammarBuilt .. => .debug
  | enterRule .. => .trace
  | exitRule .. => .trace
  | deadReference _ => .warn
  | nestedTooDeeply .. => .debug

/-- The wording of the event. -/
def message : Event → String
  | grammarBuilt .. => "grammar built"
  | enterRule .. => "enter rule"
  | exitRule .. => "exit rule"
  | deadReference _ => "rule reference used after its grammar was dropped"
  | nestedTooDeeply .. => "document nested too deeply"

/-- The named values that go with the wording. -/
def fields : Event → List (String × Field)
  | grammarBuilt rules start => [("rules", .count rules), ("start", .text start)]
  | enterRule rule remaining => [("rule", .text rule), ("remaining", .count remaining)]
  | exitRule rule ok consumed =>
    [("rule", .text rule), ("ok", .flag ok), ("consumed", .count consumed)]
  | deadReference slot => [("slot", .count slot)]
  | nestedTooDeeply depth limit => [("depth", .count depth), ("limit", .count limit)]

end Event

end Descent
