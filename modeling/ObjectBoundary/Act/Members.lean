import ObjectBoundary.Act.Recognition
import ObjectBoundary.Act.References
import ObjectBoundary.Act.Answers
import ObjectBoundary.Act.Disposal

/-!
# Calling function members

A function member gets the structure that it is called on as its receiver. Nothing forces a
caller to pass the structure whose member it calls, so the members of wrappers recognise their
receiver first.

* `Act.baseMember`, `Act.interfaceMember`, `Act.tableMember`: the three ways of doing so.
* `Act.call`: calls a member with any receiver.
-/

namespace ObjectBoundary.Act

/-- What a call of a function member brings. -/
inductive Reply where
  /-- The member is null and was not called. -/
  | absent
  /-- The function has no result. -/
  | nothing
  | number (n : Int32)
deriving DecidableEq

/-! ## Function members of wrappers -/

/-- A base member of a structure: acts on the wrapper behind the receiver. -/
def baseMember {α : Type} (cls : Tag) (receiver : Option Id) (otherwise : α) (f : Id → Act α) :
    Act α := do
  require receiver.isSome .nullBase
  match receiver with
  | none => pure otherwise
  | some s => if ← recognises cls s then f s else pure otherwise

/-- A member of an interface: asks the object behind the receiver. -/
def interfaceMember (cls : Tag) (receiver : Option Id) (index : Nat) : Act Int32 := do
  requireRunning
  require receiver.isSome .nullReceiver
  match receiver with
  | none => pure 0
  | some s =>
    match ← objectOf cls s with
    | some object => answer index object
    | none => pure 0

/-- A member of a table: asks the object behind the receiver. -/
def tableMember (cls : Tag) (receiver : Option Id) (index : Nat) : Act Int32 :=
  match receiver with
  | none => pure (-1)
  | some s => do
    match ← objectOf cls s with
    | some object => answer index object
    | none => pure (-1)

/-! ## The members of a structure -/

/-- The function at a position of the structures of a shared wrapper class. -/
def sharedMember (c : SharedClass) (position : Nat) (receiver : Option Id) : Act Reply :=
  match position with
  | 0 => do
    baseMember c.tag receiver () retain
    pure .nothing
  | 1 => return .number (← baseMember c.tag receiver 0 release)
  | 2 => return .number (← baseMember c.tag receiver 0 (ask .unique))
  | 3 => return .number (← baseMember c.tag receiver 0 (ask .referenced))
  | index + 4 =>
    match c with
    | .table _ _ => return .number (← tableMember c.tag receiver index)
    | _ => return .number (← interfaceMember c.tag receiver index)

/-- The function at a position of the structures of an owned wrapper class. -/
def ownedMember (c : OwnedClass) (position : Nat) (receiver : Option Id) : Act Reply :=
  match position with
  | 0 => do
    baseMember c.tag receiver () dispose
    pure .nothing
  | index + 1 => return .number (← interfaceMember c.tag receiver index)

/-- The function at a position of the reference counted structures of the far side. Its
receiver must be such a structure. -/
def sharedFarMember (position : Nat) (receiver : Id) : Act Reply := do
  match ← entity receiver with
  | .sharedFar f =>
    match position with
    | 0 => do
      retain receiver
      pure .nothing
    | 1 => return .number (← release receiver)
    | 2 => return .number (← ask .unique receiver)
    | 3 => return .number (← ask .referenced receiver)
    | index + 4 => return .number (← farAnswer receiver f.answers index)
  | _ => refuse .wrongKind

/-- The function at a position of the scoped structures of the far side. -/
def ownedFarMember (position : Nat) (receiver : Id) : Act Reply := do
  match ← entity receiver with
  | .ownedFar f =>
    match position with
    | 0 => do
      dispose receiver
      pure .nothing
    | index + 1 => return .number (← farAnswer receiver f.answers index)
  | _ => refuse .wrongKind

/-! ## Calls -/

/-- Calls the function member at a position of a structure, with any structure or none as the
receiver. -/
def call (s : Id) (position : Nat) (receiver : Option Id) : Act Reply := do
  let e ← entity s
  let t ← ofOption .wrongKind e.struct?
  if t.isSet position then
    match e with
    | .sharedWrapper w => contained (sharedMember w.cls position receiver)
    | .ownedWrapper w => contained (ownedMember w.cls position receiver)
    | .sharedFar _ => do sharedFarMember position (← ofOption .wrongKind receiver)
    | .ownedFar _ => do ownedFarMember position (← ofOption .wrongKind receiver)
    | _ => refuse .wrongKind
  else pure .absent

end ObjectBoundary.Act
