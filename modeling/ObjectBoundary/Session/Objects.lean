import ObjectBoundary.Session.Plan

/-!
# Making objects

The steps that make objects of this side, structures of the far side and devices.

* `Creation`: what is made.
* `Creation.plan`: its plan.
-/

namespace ObjectBoundary.Session

open ObjectBoundary

/-- A new entity. -/
inductive Creation where
  /-- A shared object, held by a handle. -/
  | sharedObject (object : LocalObject)
  | ownedObject (object : LocalObject)
  /-- A child structure of the far side, of a recorded size and without some members. -/
  | sharedFar (answers : FarAnswers) (size : Option UInt64) (null : List String)
  | ownedFar (answers : FarAnswers) (size : Option UInt64) (null : List String)
  | counter
  | checker

namespace Creation

/-- The structure that the far side makes. -/
def farStruct (l : Layout) (size : Option UInt64) (null : List String) : Structure :=
  let full := Structure.full l (l.names.map fun name => !null.contains name)
  full.withSize (size.getD full.size)

def sharedView : Behavior → SharedInterface
  | .client _ => .client
  | .child _ _ => .child
  | .table _ => .table

/-- The interface under which an owned object is made. There are no owned tables. -/
def ownedView : Behavior → Option OwnedInterface
  | .client _ => some .client
  | .child _ _ => some .child
  | .table _ => none

/-- The new entity and the slot that holds it. -/
def entity : Creation → Except Misuse (Entity × (Id → Slot))
  | sharedObject object =>
    .ok (.sharedObject ⟨object, Count.zero.succ⟩, fun x => .handle x (sharedView object.behavior))
  | ownedObject object =>
    match ownedView object.behavior with
    | some view => .ok (.ownedObject object, fun x => .owner x view)
    | none => .error .wrongKind
  | sharedFar answers size null =>
    .ok (.sharedFar ⟨answers, farStruct Layout.sharedChild size null, 1, false⟩, .struct)
  | ownedFar answers size null =>
    .ok (.ownedFar ⟨answers, farStruct Layout.ownedChild size null, 0⟩, .struct)
  | counter => .ok (.counter .zero, .device)
  | checker => .ok (.checker false, .device)

/-- Devices stay unnamed in the answer. -/
def isDevice : Creation → Bool
  | counter | checker => true
  | _ => false

def plan (c : Creation) (name : String) : Except Misuse Plan := do
  let (e, slot) ← c.entity
  return .making name do
    let x ← Act.create name e
    if c.isDevice then pure (.null, slot x) else holding slot (some x)

end Creation

end ObjectBoundary.Session
