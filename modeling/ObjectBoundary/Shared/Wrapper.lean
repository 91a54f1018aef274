import ObjectBoundary.Act.Recognition
import ObjectBoundary.Act.References

/-!
# Wrappers of shared objects

A shared object crosses the boundary inside a wrapper, whose structure the far side uses. The
structure carries references of its own, each of which owns one to the object.

* `SharedClass.wrap`: gives a handle away as a structure with one reference.
* `SharedClass.unwrap`: takes the reference of a structure back as a handle.
-/

namespace ObjectBoundary.SharedClass

open Act

/-- The class deriving from another one whose structures have a tag. -/
def derived? (c : SharedClass) (t : Tag) : Option SharedClass :=
  if c = client ∧ t = Tag.sharedChild then some child else none

/-- Wraps the object of a handle. The handle is given up in any case. -/
def wrap (c : SharedClass) (name : String) (object : Id) : Act Id :=
  ensuring
    (do
      requireRunning
      let w ← create name (.sharedWrapper ⟨c, object, c.newStruct, .zero⟩)
      retain w
      emit (.crossed .wrapped c.tag)
      pure w)
    (drop object)

/-- Takes a handle to the object of a wrapper and gives up a reference to the wrapper, in that
order, so that the object outlives the exchange. -/
def retrieve (c : SharedClass) (s : Id) : Act (Option Id) := do
  match ← entity s with
  | .sharedWrapper w => do
    retain w.object
    onUnwind (discard (release s)) (drop w.object)
    emit (.crossed .unwrapped c.tag)
    pure (some w.object)
  | _ => refuse .wrongKind

/-- Takes back the reference of a structure that this class or one deriving from it made. -/
def unwrap (c : SharedClass) (s : Id) : Act (Option Id) := do
  requireRunning
  let found ← wrapperTag s
  if found = c.tag then c.retrieve s
  else
    match c.derived? found with
    | some d => do
      requireRunning
      d.retrieve s
    | none => do
      check (.unexpectedClass found)
      pure none

end ObjectBoundary.SharedClass
