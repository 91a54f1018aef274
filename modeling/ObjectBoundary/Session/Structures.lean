import ObjectBoundary.Session.Plan
import ObjectBoundary.Act.Members

/-!
# Using structures directly

The steps that the far side would take: calling the function members of a structure, and
changing what the structure says about itself.

* `StructStep`: such a step.
* `StructStep.plan`: its plan.
-/

namespace ObjectBoundary.Session

open ObjectBoundary

/-- The structure that a function member is called on. -/
inductive Receiver where
  /-- The structure whose member is called. -/
  | itself
  /-- What an argument names. -/
  | given (source : Option String)

/-- A step that uses a structure. -/
inductive StructStep where
  | call (source member : String) (receiver : Receiver)
  | clear (source member : String)
  | resize (source : String) (size : UInt64)
  | size (source : String)
  /-- The object behind a structure, for a class of either flavour. -/
  | object (cls : WrapperClass) (source : String)

namespace StructStep

def receiver (slots : Slots) (s : Id) : Receiver → Except Misuse (Option Id)
  | .itself => .ok (some s)
  | .given source => slots.struct? source

/-- The position of a member of a structure. -/
def position (s : Id) (member : String) : Act Nat := do
  Act.ofOption .unknown ((← Act.struct s).layout.position? member)

/-- Replaces the structure of an entity. -/
def change (s : Id) (f : Structure → Structure) : Act Unit := do
  let e ← Act.entity s
  let t ← Act.ofOption .wrongKind e.struct?
  Act.put s (e.withStruct (f t))

def replyValue : Act.Reply → Value
  | .absent => .text "null"
  | .nothing => .null
  | .number n => .number n.toInt

def plan (slots : Slots) : StructStep → Except Misuse Plan
  | call source member r => do
    let s ← slots.struct source
    let r ← receiver slots s r
    return .answering do
      let i ← position s member
      return replyValue (← Act.call s i r)
  | clear source member => do
    let s ← slots.struct source
    return .answering do
      let i ← position s member
      silently (change s fun x => x.clear i)
  | resize source n => do
    let s ← slots.struct source
    return .answering (silently (change s fun x => x.withSize n))
  | size source => do
    let s ← slots.struct source
    return .answering do
      return .number (← Act.struct s).size.toNat
  | object c source => do
    let s ← slots.struct source
    return .answering do
      asName (← Act.objectOf c.tag s)

end StructStep

end ObjectBoundary.Session
