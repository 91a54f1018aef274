import ObjectBoundary.Act.Entities

/-!
# Disposal along a chain

What has a single owner is destroyed with it. An owning wrapper destroys its object and a proxy
deletes the structure that it still holds, so disposal goes down the chain as far as ownership
does.

* `Act.dispose`: destroys an owned object, wrapper or proxy with all that it owns.
-/

namespace ObjectBoundary.Act

/-- Destroys the first entity of a chain and what it owns. It ceases to exist even if shutdown
has begun and the failed check unwinds, but then what it owns stays. The function `del` of the
far side only counts. -/
def disposeAlong : List Id → Act Unit
  | [] => refuse .unknown
  | x :: below => do
    match ← entity x with
    | .ownedObject _ => do
      retire x
      emit (.dropped x)
    | .ownedWrapper w => do
      retire x
      requireRunning
      if w.owns && w.object.isSome then disposeAlong below
    | .ownedProxy p => do
      retire x
      requireRunning
      match p.target with
      | none => pure ()
      | some s => through s Layout.del () (disposeAlong below)
    | .ownedFar f => do
      emit (.called x "del")
      put x (.ownedFar { f with deletions := f.deletions + 1 })
    | _ => refuse .wrongKind

/-- Destroys an entity and what it owns. -/
def dispose (x : Id) : Act Unit := do
  disposeAlong (← chain x)

end ObjectBoundary.Act
