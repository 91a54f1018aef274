import ObjectBoundary.Act.Recognition
import ObjectBoundary.Act.Disposal

/-!
# Wrappers of owned objects

An owned object crosses the boundary either for good, inside a wrapper that owns it and that the
far side deletes, or on loan, inside a wrapper that this side keeps and destroys.

* `OwnedClass.give`, `OwnedClass.lend`: wraps an object for good or on loan.
* `OwnedClass.takeBack`: takes an object back from the structure that owns it.
* `OwnedClass.borrow`: finds the object behind a structure.
-/

namespace ObjectBoundary.OwnedClass

open Act

/-- The class deriving from another one whose structures have a tag. -/
def derived? (c : OwnedClass) (t : Tag) : Option OwnedClass :=
  if c = client ∧ t = Tag.ownedChild then some child else none

/-- Wraps an object that the wrapper then owns. -/
def give (c : OwnedClass) (name : String) (object : Id) : Act Id := do
  requireRunning
  let w ← create name (.ownedWrapper ⟨c, some object, c.newStruct true, true⟩)
  emit (.crossed .gaveAway c.tag)
  pure w

/-- Wraps an object that the wrapper only borrows. -/
def lend (c : OwnedClass) (name : String) (object : Id) : Act Id := do
  requireRunning
  let w ← create name (.ownedWrapper ⟨c, some object, c.newStruct false, false⟩)
  emit (.crossed .lent c.tag)
  pure w

/-- Takes the object out of a wrapper and destroys the wrapper without it. -/
def retrieve (c : OwnedClass) (s : Id) : Act (Option Id) := do
  match ← entity s with
  | .ownedWrapper w => do
    require w.owns .notOwning
    if w.owns then
      put s (.ownedWrapper { w with object := none })
      dispose s
      emit (.crossed .tookBack c.tag)
      pure w.object
    else pure none
  | _ => refuse .wrongKind

/-- Takes back the object of a structure that this class or one deriving from it made. -/
def takeBack (c : OwnedClass) (s : Id) : Act (Option Id) := do
  requireRunning
  let found ← wrapperTag s
  if found = c.tag then c.retrieve s
  else
    match c.derived? found with
    | some d => do
      requireRunning
      d.retrieve s
    | none => do
      check (.unexpectedClass found)
      pure none

/-- Finds the object of a structure that this class or one deriving from it made. -/
def borrow (c : OwnedClass) (s : Id) : Act (Option Id) := do
  let found ← wrapperTag s
  if found = c.tag then objectOf c.tag s
  else
    match c.derived? found with
    | some d => objectOf d.tag s
    | none => do
      check (.unexpectedClass found)
      pure none

end ObjectBoundary.OwnedClass
