import Descent.Session.Combine
import Descent.Session.Recipe
import Descent.Sequence

/-!
# Sessions

In a session parsers and sequences are made, kept under names, run and dropped. After every command
the tables that nobody keeps any more are dropped as well, so that a reference to one of their rules
fails from then on.
-/

namespace Descent

/-- The state of a session. -/
structure Session where
  store : Store
  /-- The parsers at hand. -/
  slots : Slots Parser
  /-- The sequences at hand. -/
  sequences : Slots (Sequence Value)

/-- What can be done in a session. -/
inductive Command
  /-- Makes a parser and keeps it in a slot. -/
  | define (slot : String) (recipe : Recipe)
  /-- Runs the parser in a slot. -/
  | run (slot : String) (text : Text)
  /-- Empties a slot. -/
  | drop (slot : String)
  /-- Gives the parser in a slot another name. -/
  | rename (slot name : String)
  /-- Keeps the parser of one slot in another slot as well. -/
  | copy (source target : String)
  /-- Shows the parser in a slot. -/
  | inspect (slot : String)
  /-- Runs the parser in a slot on several texts at the same time. -/
  | runEach (slot : String) (texts : List Text)
  /-- Makes a sequence and keeps it. -/
  | sequence (name : String) (recipes : List Recipe) (combine : Combine)
  /-- Keeps a sequence under another name as well. -/
  | copySequence (source target : String)
  /-- Gives up a sequence. -/
  | dropSequence (name : String)
  /-- Runs a sequence. -/
  | runSequence (name : String) (text : Text)

/-- What a command answers. -/
inductive Answer
  /-- The command failed. -/
  | fault (f : Fault)
  /-- The name of the parser that was made. -/
  | name (name : String)
  /-- A parser as it is shown. -/
  | parser (name description : String)
  /-- What a run on the given text reports. -/
  | outcome (input : Text) (o : Outcome)
  /-- What runs on several texts report. -/
  | outcomes (results : List (Text × Outcome))
  /-- Whether there was something to give up. -/
  | dropped (existed : Bool)
  /-- A sequence as it is shown. -/
  | sequence (description : String)
  /-- What a sequence makes of the given text. -/
  | value (input : Text) (result : Except Outcome Value)
  /-- A run did not come to an end. -/
  | endless

namespace Session

/-- A session in which nothing has been done. -/
def empty : Session := ⟨.empty, .empty, .empty⟩

/-- The parsers that the session keeps, in slots and in sequences. -/
def parsers (s : Session) : List Parser :=
  s.slots.values ++ s.sequences.values.flatMap (·.parsers)

/-- The session without the tables that neither it nor the given parsers keep. -/
def collect (s : Session) (others : List Parser) : Session :=
  { s with store := s.store.collect (others ++ s.parsers) }

/-- The handle of a recipe that stands in no grammar. -/
def noRules : Rules := ⟨0, [], ""⟩

/-- Does work that can fail: its result, its log, and the session after it. What was put aside in slots
stays there even after a fault. -/
def work (s : Session) (prepare : Prepare α) : Except Fault α × Log × Session :=
  let (result, site) := prepare (.fresh s.store ⟨s.slots, none⟩)
  (result, site.log, { s with store := site.store, slots := site.own.slots })

/-- Makes a parser, without keeping it. -/
def prepare (s : Session) (recipe : Recipe) : Except Fault Parser × Log × Session :=
  let (result, log, s) := s.work (recipe.prepare noRules)
  (result, log, s.collect result.toOption.toList)

/-- Makes several parsers, without keeping them. -/
def prepareAll (s : Session) (recipes : List Recipe) : Except Fault (List Parser) × Log × Session :=
  let (result, log, s) := s.work (recipes.mapM fun recipe => recipe.prepare noRules)
  (result, log, s.collect (result.toOption.getD []))

/-- Makes a sequence, without keeping it. -/
def prepareSequence (s : Session) (recipes : List Recipe) (combine : Combine) :
    Except Fault (Sequence Value) × Log × Session :=
  let (result, log, s) := s.prepareAll recipes
  let made := do
    let parsers ← result
    (Sequence.ofList parsers combine.value).mapError .grammar
  (made, log, s)

/-- Answers with the parser in a slot, or with a fault if there is none. -/
def withSlot (s : Session) (slot : String) (use : Parser → Answer × Log × Session) :
    Answer × Log × Session :=
  match s.slots.get? slot with
  | some p => use p
  | none => (.fault (.emptySlot slot), [], s)

/-- Answers with a sequence, or with a fault if there is none under the name. -/
def withSequence (s : Session) (name : String)
    (use : Sequence Value → Answer × Log × Session) : Answer × Log × Session :=
  match s.sequences.get? name with
  | some q => use q
  | none => (.fault (.emptySlot name), [], s)

/-- Does what a command says: the answer, what happened on the way, and the session after it. -/
def perform (s : Session) : Command → Answer × Log × Session
  | .define slot recipe =>
    match s.prepare recipe with
    | (.error fault, log, s) => (.fault fault, log, s)
    | (.ok p, log, s) => (.name p.name, log, { s with slots := s.slots.put slot p })
  | .run slot text => s.withSlot slot fun p =>
    match s.store.run p text with
    | some r => (.outcome text r.outcome, r.log, s)
    | none => (.endless, [], s)
  | .drop slot =>
    (.dropped (s.slots.contains slot), [], { s with slots := s.slots.erase slot })
  | .rename slot name => s.withSlot slot fun p =>
    (.name name, [], { s with slots := s.slots.put slot (.named name p) })
  | .copy source target => s.withSlot source fun p =>
    (.name p.name, [], { s with slots := s.slots.put target p })
  | .inspect slot => s.withSlot slot fun p => (.parser p.name p.describe, [], s)
  | .runEach slot texts => s.withSlot slot fun p =>
    match texts.mapM fun text => (s.store.run p text).map fun r => (text, r.outcome) with
    | some results => (.outcomes results, [], s)
    | none => (.endless, [], s)
  | .sequence name recipes combine =>
    match s.prepareSequence recipes combine with
    | (.error fault, log, s) => (.fault fault, log, s)
    | (.ok q, log, s) =>
      (.sequence q.describe, log, { s with sequences := s.sequences.put name q })
  | .copySequence source target => s.withSequence source fun q =>
    (.sequence q.describe, [], { s with sequences := s.sequences.put target q })
  | .dropSequence name =>
    (.dropped (s.sequences.contains name), [],
      { s with sequences := s.sequences.erase name })
  | .runSequence name text => s.withSequence name fun q =>
    match q.run s.store text with
    | some (result, log) => (.value text result, log, s)
    | none => (.endless, [], s)

/-- Performs a command, and drops the tables that nobody keeps after it. -/
def execute (s : Session) (c : Command) : Answer × Log × Session :=
  let (answer, log, s) := s.perform c
  (answer, log, s.collect [])

/-- Performs commands one after the other. -/
def executeAll (s : Session) : List Command → List (Answer × Log)
  | [] => []
  | c :: cs =>
    let (answer, log, s) := s.execute c
    (answer, log) :: s.executeAll cs

end Session

end Descent
