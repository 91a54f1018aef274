import ObjectBoundary.Act.Entities

/-!
# Values along a chain

The functions of the interfaces are answered by the bottom of a chain, an object of this side or
a structure of the far side. On the way there, wrappers and proxies check for shutdown, and a
proxy does not call what its structure does not offer.

* `Act.answer`: what an interface function finds at the bottom.
-/

namespace ObjectBoundary.Act

/-- A function of the far side answers from its own memory. -/
def farAnswer (x : Id) (a : FarAnswers) (index : Nat) : Act Int32 := do
  let (member, value) ← ofOption .wrongKind (a.value? index)
  emit (.called x member)
  pure value

/-- Calls the interface function at an index, counted from zero, of an object or of the
structure of a wrapper. A wrapper checks for shutdown before it passes the call on, once for the
call and once for the access to its object; a table has no check of its own for the call. A
proxy whose structure does not offer the function, or was taken, answers zero. -/
def answerAlong (index : Nat) : List Id → Act Int32
  | [] => refuse .unknown
  | x :: below => do
    match ← entity x with
    | .sharedObject o => ofOption .wrongKind (o.object.behavior.answer? index)
    | .ownedObject o => ofOption .wrongKind (o.behavior.answer? index)
    | .sharedWrapper w => do
      match w.cls with
      | .table _ _ => pure ()
      | _ => requireRunning
      requireRunning
      answerAlong index below
    | .ownedWrapper _ => do
      requireRunning
      requireRunning
      answerAlong index below
    | .sharedProxy p => do
      requireRunning
      throughOffered p.target (Layout.sharedFirst + index) 0 (answerAlong index below)
    | .ownedProxy p => do
      requireRunning
      match p.target with
      | none => pure 0
      | some s => throughOffered s (Layout.ownedFirst + index) 0 (answerAlong index below)
    | .sharedFar f => farAnswer x f.answers index
    | .ownedFar f => farAnswer x f.answers index
    | _ => refuse .wrongKind

/-- What the interface function at an index finds at the bottom of the chain of an entity. -/
def answer (index : Nat) (x : Id) : Act Int32 := do
  answerAlong index (← chain x)

end ObjectBoundary.Act
