import ObjectBoundary.Session.Slot

/-!
# Plans of steps

A step of a session is planned from the slots alone: which slot it uses up, which one it makes,
and what it does in between. A slot is used up however the act ends; a slot is made only if the
act is done.

* `Value`: what a step answers.
* `Plan`: the plan of a step.
-/

namespace ObjectBoundary.Session

open ObjectBoundary

/-- What a step answers. -/
inductive Value where
  | null
  | flag (b : Bool)
  | number (n : Int)
  | text (s : String)
  | settings (s : Settings)
  | error (e : SettingsError)
  | sharedReport (r : SharedReport)
  | ownedReport (r : OwnedReport)

/-- What a step uses up, what it makes, and what it does. -/
structure Plan where
  /-- The slot that is used up. -/
  consumes : Option String := none
  /-- The slot that is made. -/
  makes : Option String := none
  act : Act (Value × Slot)

namespace Plan

/-- A plan that only answers. -/
def answering (act : Act Value) : Plan where
  act := do return (← act, .null)

/-- A plan that makes a slot. -/
def making (name : String) (act : Act (Value × Slot)) : Plan where
  makes := some name
  act := act

/-- A plan that uses a slot up. -/
def consuming (name : Option String) (p : Plan) : Plan := { p with consumes := name }

end Plan

/-! ## Answers of acts -/

/-- The answer of an act that has none. -/
def silently (x : Act Unit) : Act Value := do
  x
  pure .null

def asFlag (x : Act Bool) : Act Value := return .flag (← x)

/-- A number other than zero stands for yes. -/
def asTruth (x : Act Int32) : Act Value := return .flag ((← x) != 0)

def asNumber (x : Act Int32) : Act Value := return .number (← x).toInt

/-- The name of an entity, or null. -/
def asName : Option Id → Act Value
  | some x => return .text ((← Act.get).store.nameOf x)
  | none => pure .null

/-- The name of an entity and the slot that holds it. -/
def holding (slot : Id → Slot) : Option Id → Act (Value × Slot)
  | some x => return (← asName (some x), slot x)
  | none => pure (.null, .null)

end ObjectBoundary.Session
