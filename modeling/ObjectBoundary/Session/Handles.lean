import ObjectBoundary.Session.Plan
import ObjectBoundary.Act.Answers
import ObjectBoundary.Act.Disposal

/-!
# Using handles

The steps that pass references around, ask objects, and show what a slot holds.

* `HandleStep`: such a step.
* `HandleStep.plan`: its plan.
-/

namespace ObjectBoundary.Session

open ObjectBoundary

/-- The interface under which an object is to be held from now on. -/
inductive Upcast where
  | client
  | base
  | ownedClient
deriving DecidableEq

/-- A step that uses a handle. -/
inductive HandleStep where
  | clone (source name : String)
  /-- Gives a handle, an owned object or a borrowing wrapper up. -/
  | drop (source : String)
  | leak (source name : String)
  /-- Makes a leaked reference a handle again. -/
  | reclaim (source name : String)
  /-- Takes another reference to the object of a leaked one. -/
  | retain (source name : String)
  /-- Gives a leaked reference up. -/
  | release (source : String)
  | upcast (source : String) (target : Upcast) (name : String)
  | same (source other : String)
  | ask (question : Question) (source : String)
  | reportedTag (source : String)
  | value (source : String)
  | otherValue (source : String)
  /-- Asks a table for the value at an index. -/
  | lookup (source : String) (index : Int32)
  | describe (source : String)

namespace HandleStep

/-- A handle under another interface. -/
def upcastSlot (target : Upcast) : Slot → Except Misuse Slot
  | .handle o view =>
    match target, view with
    | .client, .child => .ok (.handle o .client)
    | .base, .client | .base, .child | .base, .table => .ok (.handle o .base)
    | _, _ => .error .wrongKind
  | .owner o view =>
    match target, view with
    | .ownedClient, .child => .ok (.owner o .client)
    | _, _ => .error .wrongKind
  | _ => .error .wrongKind

/-- The object of a handle or an owner. -/
def heldObject : Slot → Except Misuse Id
  | .handle o _ => .ok o
  | .owner o _ => .ok o
  | _ => .error .wrongKind

/-- The object of a slot, if the slot offers the function at an index. -/
def askable (index : Nat) : Slot → Except Misuse Id
  | .handle o .client => if index = 0 then .ok o else .error .wrongKind
  | .handle o .child => .ok o
  | .owner o .client => if index = 0 then .ok o else .error .wrongKind
  | .owner o .child => .ok o
  | _ => .error .wrongKind

/-- Asks a table for the value at an index, which may be any number. -/
def lookupIn (object : Id) (index : Int32) : Act Value := do
  match ← Act.entity object with
  | .sharedObject o =>
    match o.object.behavior with
    | .table first => pure (.number (first + index).toInt)
    | _ => Act.refuse .wrongKind
  | _ => Act.refuse .wrongKind

/-- Shows what a slot holds. -/
def shown (slot : Slot) : Act Value := do
  match slot with
  | .handle o _ =>
    match ← Act.entity o with
    | .sharedProxy p => pure (.text p.debugText)
    | _ => pure (.text handleText)
  | .owner o _ =>
    match ← Act.entity o with
    | .ownedProxy p => pure (.text p.debugText)
    | _ => Act.refuse .wrongKind
  | .loan w => do
    discard (Act.entity w)
    pure (.text loanText)
  | .struct s => return .text (← Act.struct s).debugText
  | .device x =>
    match ← Act.entity x with
    | .counter c => pure (.text c.text)
    | .checker b => pure (.text (checkerText b))
    | _ => Act.refuse .wrongKind
  | _ => Act.refuse .wrongKind

/-- Gives up what a slot holds. -/
def giveUp : Slot → Except Misuse (Act Unit)
  | .handle o _ => .ok (Act.drop o)
  | .owner o _ => .ok (Act.dispose o)
  | .loan w => .ok (Act.dispose w)
  | _ => .error .wrongKind

def plan (slots : Slots) : HandleStep → Except Misuse Plan
  | clone source name => do
    let (o, view) ← slots.handle source
    return .making name do
      Act.retain o
      pure (.null, .handle o view)
  | drop source => do
    let act ← giveUp (← slots.argument (some source))
    return (Plan.answering (silently act)).consuming source
  | leak source name => do
    let (o, view) ← slots.handle source
    return (Plan.making name (pure (.null, .leaked o view))).consuming source
  | reclaim source name => do
    let (o, view) ← slots.leaked source
    return (Plan.making name (pure (.null, .handle o view))).consuming source
  | retain source name => do
    let (o, view) ← slots.leaked source
    return .making name do
      Act.retain o
      pure (.null, .handle o view)
  | release source => do
    let (o, _) ← slots.leaked source
    return (Plan.answering (asTruth (Act.release o))).consuming source
  | upcast source target name => do
    let slot ← upcastSlot target (← slots.argument (some source))
    return (Plan.making name (pure (.null, slot))).consuming source
  | same source other => do
    let (o, _) ← slots.handle source
    let (p, _) ← slots.handle other
    return .answering (pure (.flag (o == p)))
  | ask question source => do
    let (o, _) ← slots.handle source
    return .answering (asTruth (Act.ask question o))
  | reportedTag source => do
    let o ← heldObject (← slots.argument (some source))
    return .answering do
      match (← Act.entity o).reportedTag? with
      | some t => pure (.text t.text)
      | none => pure .null
  | value source => do
    let o ← askable 0 (← slots.argument (some source))
    return .answering (asNumber (Act.answer 0 o))
  | otherValue source => do
    let o ← askable 1 (← slots.argument (some source))
    return .answering (asNumber (Act.answer 1 o))
  | lookup source index => do
    let (o, _) ← slots.handle source
    return .answering (lookupIn o index)
  | describe source => do
    let slot ← slots.argument (some source)
    return .answering (shown slot)

end HandleStep

end ObjectBoundary.Session
