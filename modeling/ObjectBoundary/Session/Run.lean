import ObjectBoundary.Session.Objects
import ObjectBoundary.Session.Handles
import ObjectBoundary.Session.Crossings
import ObjectBoundary.Session.Structures
import ObjectBoundary.Session.Watches

/-!
# Running sessions

A session is a process together with the slots of whoever drives it. Its steps run one after the
other, each in a normal phase and with a log of its own, until one of them ends the process.

* `Step`: a step of any kind.
* `State.step`: one step, with its answer.
* `run`: the answers of a whole session.
-/

namespace ObjectBoundary.Session

open ObjectBoundary

/-- A step of a session. -/
inductive Step where
  | create (creation : Creation) (name : String)
  | handle (step : HandleStep)
  | shared (step : SharedStep)
  | owned (step : OwnedStep)
  | struct (step : StructStep)
  | device (step : DeviceStep) (source : String)
  | process (step : ProcessStep)

def Step.plan (slots : Slots) : Step → Except Misuse Plan
  | create c name => c.plan name
  | handle step => step.plan slots
  | shared step => step.plan slots
  | owned step => step.plan slots
  | struct step => step.plan slots
  | device step source => step.plan slots source
  | process step => .ok (.answering step.act)

/-- The answer of a step. -/
structure Answer where
  outcome : Outcome Value
  /-- What the step logged, line by line. -/
  lines : List String
  /-- The states of the entities that the step changed or made. -/
  states : List (String × String)

/-- The state of a session. -/
structure State where
  world : World
  slots : Slots

namespace State

/-- A process that has done nothing yet. Settings given at the start are installed silently. -/
def initial (e : Environment) (s : Option Settings) : State := ⟨World.initial e s, Slots.empty⟩

/-- The entities whose text is new or other than before, given those of before and after. -/
def changesAmong : List Node → List Node → List (String × String)
  | _, [] => []
  | [], n :: after => (n.name, n.text) :: changesAmong [] after
  | m :: before, n :: after =>
    if m.text = n.text then changesAmong before after
    else (n.name, n.text) :: changesAmong before after

def changes (before after : Store) : List (String × String) :=
  changesAmong before.nodes after.nodes

/-- The slots that are left once a plan has used up what it uses up. -/
def remaining (slots : Slots) (p : Plan) : Slots := p.consumes.elim slots slots.without

/-- The name of the slot that a plan makes must be free by then. -/
def nameIsFree (slots : Slots) (p : Plan) : Bool :=
  p.makes.all fun name => ((remaining slots p).find? name).isNone

/-- Carries a plan out. A plan that is refused changes nothing. -/
def carryOut (s : State) (p : Plan) : Outcome Value × World × Slots :=
  match p.act .normal { s.world with log := [] } with
  | (.done (value, slot), w) =>
    let slots := remaining s.slots p
    (.done value, w, p.makes.elim slots fun name => slots.add name slot)
  | (.unwound failure, w) => (.unwound failure, w, remaining s.slots p)
  | (.aborted failure, w) => (.aborted failure, w, remaining s.slots p)
  | (.refused misuse, _) => (.refused misuse, { s.world with log := [] }, s.slots)

/-- The answer to an outcome. A process that has ended has no states to show. -/
def answerTo (before : World) (outcome : Outcome Value) (after : World) : Answer where
  outcome := outcome
  lines := after.log.filterMap (Event.line? after.store.nameOf)
  states := match outcome with
    | .aborted _ => []
    | _ => changes before.store after.store

/-- One step of a session. -/
def step (s : State) (x : Step) : Answer × State :=
  match x.plan s.slots with
  | .error misuse => (⟨.refused misuse, [], []⟩, s)
  | .ok p =>
    if nameIsFree s.slots p then
      let (outcome, w, slots) := s.carryOut p
      (answerTo s.world outcome w, ⟨w, slots⟩)
    else (⟨.refused .taken, [], []⟩, s)

end State

/-- Whether a process goes on after an answer. -/
def Answer.goesOn (a : Answer) : Bool :=
  match a.outcome with
  | .aborted _ => false
  | _ => true

/-- The answers of the steps of a session, up to the one that ends the process. -/
def runFrom (s : State) : List Step → List Answer
  | [] => []
  | x :: rest =>
    let (a, s') := s.step x
    a :: if a.goesOn then runFrom s' rest else []

/-- The answers of a session in a new process. -/
def run (e : Environment) (s : Option Settings) (steps : List Step) : List Answer :=
  runFrom (.initial e s) steps

end ObjectBoundary.Session
