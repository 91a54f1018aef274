import ObjectBoundary.Session.Plan
import ObjectBoundary.Shared.Wrapper
import ObjectBoundary.Shared.Proxy
import ObjectBoundary.Owned.Wrapper
import ObjectBoundary.Owned.Proxy

/-!
# Crossing the boundary

The steps that wrap and unwrap objects, make and unmake proxies, and look at them.

* `SharedStep`, `OwnedStep`: such steps, for the two flavours.
* `SharedStep.plan`, `OwnedStep.plan`: their plans.
-/

namespace ObjectBoundary.Session

open ObjectBoundary

/-- An act for the entity that an argument names, or nothing where it names none. -/
def unlessNull (x : Option Id) (act : Id → Act (Value × Slot)) : Act (Value × Slot) :=
  match x with
  | some x => act x
  | none => pure (.null, .null)

/-- The object of a handle that must have a certain interface. -/
def viewed {View : Type} [DecidableEq View] (expected : View) :
    Option (Id × View) → Except Misuse (Option Id)
  | none => .ok none
  | some (o, view) => if view = expected then .ok (some o) else .error .wrongKind

/-! ## Shared objects -/

/-- What is asked of the structure of a proxy. -/
inductive TargetStep where
  | retain
  | release
  | ask (question : Question)
  | struct
  | tag
deriving DecidableEq

/-- A step by which a shared object crosses the boundary. -/
inductive SharedStep where
  | wrap (cls : SharedClass) (source : Option String) (name : String)
  | unwrap (cls : SharedClass) (source : Option String) (name : String)
  | inspect (cls : SharedClass) (source : String)
  /-- Takes a reference to a wrapper directly. -/
  | retainWrapper (cls : SharedClass) (source : String)
  /-- Gives a reference to a wrapper up directly. -/
  | releaseWrapper (cls : SharedClass) (source : String)
  | receive (cls : ProxyClass) (source : Option String) (name : String)
  | giveBack (cls : ProxyClass) (source : Option String) (name : String)
  | target (step : TargetStep) (source : String)

namespace SharedStep

/-- Only reference counted structures have shared proxies. -/
def requireShared (s : Id) : Act Unit := do
  match ← Act.entity s with
  | .sharedWrapper _ | .sharedFar _ => pure ()
  | _ => Act.refuse .wrongKind

def targetAct (p : SharedProxy) : TargetStep → Act Value
  | .retain => silently (ProxyClass.retainTarget p)
  | .release => asFlag (ProxyClass.releaseTarget p)
  | .ask q => asFlag (ProxyClass.askTarget q p)
  | .struct => asName (some p.target)
  | .tag => pure (.text p.cls.sharedTag.text)

def plan (slots : Slots) : SharedStep → Except Misuse Plan
  | wrap c source name => do
    let o ← viewed c.interface (← slots.handle? source)
    return (Plan.making name (unlessNull o fun o => do
      holding .struct (some (← c.wrap name o)))).consuming (if o.isSome then source else none)
  | unwrap c source name => do
    let s ← slots.struct? source
    return .making name (unlessNull s fun s => do
      holding (fun o => .handle o c.interface) (← c.unwrap s))
  | inspect c source => do
    let s ← slots.struct source
    return .answering do
      match ← c.inspect s with
      | some r => pure (.sharedReport r)
      | none => pure .null
  | retainWrapper c source => do
    let s ← slots.struct source
    return .answering do
      if ← Act.recognises c.tag s then
        Act.retain s
      pure .null
  | releaseWrapper c source => do
    let s ← slots.struct source
    return .answering do
      if ← Act.recognises c.tag s then
        asTruth (Act.release s)
      else pure .null
  | receive c source name => do
    let s ← slots.struct? source
    return .making name (unlessNull s fun s => do
      requireShared s
      holding (fun o => .handle o c.sharedInterface) (some (← c.receive name s)))
  | giveBack c source name => do
    let o ← viewed c.sharedInterface (← slots.handle? source)
    return (Plan.making name (unlessNull o fun o => do
      holding .struct (← c.giveBack o))).consuming (if o.isSome then source else none)
  | target step source => do
    let (o, _) ← slots.handle source
    return .answering do
      match ← Act.entity o with
      | .sharedProxy p => targetAct p step
      | _ => Act.refuse .wrongKind

end SharedStep

/-! ## Owned objects -/

/-- A step by which an owned object crosses the boundary. -/
inductive OwnedStep where
  | give (cls : OwnedClass) (source : Option String) (name : String)
  | lend (cls : OwnedClass) (source : Option String) (name : String)
  /-- The structure of a borrowing wrapper. -/
  | loanStruct (source name : String)
  | takeBack (cls : OwnedClass) (source : Option String) (name : String)
  | borrow (cls : OwnedClass) (source : Option String)
  | inspect (cls : OwnedClass) (source : String)
  | adopt (cls : ProxyClass) (source : Option String) (name : String)
  | surrender (cls : ProxyClass) (source : Option String) (name : String)
  | reveal (cls : ProxyClass) (source : Option String) (name : String)
  | takeTarget (source name : String)

namespace OwnedStep

/-- Only structures with a single owner have owned proxies. -/
def requireOwned (s : Id) : Act Unit := do
  match ← Act.entity s with
  | .ownedWrapper _ | .ownedFar _ => pure ()
  | _ => Act.refuse .wrongKind

def plan (slots : Slots) : OwnedStep → Except Misuse Plan
  | give c source name => do
    let o ← viewed c.interface (← slots.owner? source)
    return (Plan.making name (unlessNull o fun o => do
      holding .struct (some (← c.give name o)))).consuming (if o.isSome then source else none)
  | lend c source name => do
    let o ← viewed c.interface (← slots.owner? source)
    return .making name (unlessNull o fun o => do
      holding .loan (some (← c.lend name o)))
  | loanStruct source name => do
    let w ← slots.loan source
    return .making name do
      discard (Act.entity w)
      holding .struct (some w)
  | takeBack c source name => do
    let s ← slots.struct? source
    return .making name (unlessNull s fun s => do
      holding (fun o => .owner o c.interface) (← c.takeBack s))
  | borrow c source => do
    let s ← slots.struct? source
    return .answering do
      match s with
      | some s => asName (← c.borrow s)
      | none => pure .null
  | inspect c source => do
    let s ← slots.struct source
    return .answering do
      match ← c.inspect s with
      | some r => pure (.ownedReport r)
      | none => pure .null
  | adopt c source name => do
    let s ← slots.struct? source
    return .making name (unlessNull s fun s => do
      requireOwned s
      holding (fun o => .owner o c.ownedInterface) (some (← c.adopt name s)))
  | surrender c source name => do
    let o ← viewed c.ownedInterface (← slots.owner? source)
    return (Plan.making name (unlessNull o fun o => do
      holding .struct (← c.surrender o))).consuming (if o.isSome then source else none)
  | reveal c source name => do
    let o ← viewed c.ownedInterface (← slots.owner? source)
    return .making name (unlessNull o fun o => do
      holding .struct (← c.reveal o))
  | takeTarget source name => do
    let (o, _) ← slots.owner source
    return .making name do
      holding .struct (← ProxyClass.takeTarget o)

end OwnedStep

end ObjectBoundary.Session
