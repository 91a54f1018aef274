import ObjectBoundary.Act.References

/-!
# Proxies of shared structures

A reference counted structure of the far side is used on this side through a proxy, a shared
object whose references each own one to the structure.

* `ProxyClass.receive`: takes over the reference of a structure and gives a handle to its proxy.
* `ProxyClass.giveBack`: gives a handle to a proxy up and hands a reference to its structure out.
-/

namespace ObjectBoundary.ProxyClass

open Act

/-- The class deriving from another one whose shared proxies have a tag. -/
def sharedDerived? (c : ProxyClass) (t : Tag) : Option ProxyClass :=
  if c = client ∧ t = child.sharedTag then some child else none

/-- Makes a proxy of a structure. The handle takes a reference of its own, after which the one
that came with the structure is given up. -/
def receive (c : ProxyClass) (name : String) (s : Id) : Act Id := do
  requireRunning
  let p ← create name (.sharedProxy ⟨c, s, .zero⟩)
  retain p
  discard (through s Layout.release 0 (release s))
  emit (.crossed .received c.sharedTag)
  pure p

/-- Hands out a reference to the structure of a proxy of this very class and gives the handle to
the proxy up. -/
def handOut (c : ProxyClass) (object : Id) : Act (Option Id) :=
  ensuring
    (do
      match ← entity object with
      | .sharedProxy p =>
        if p.cls = c then
          through p.target Layout.addRef () (retain p.target)
          emit (.crossed .returned c.sharedTag)
          pure (some p.target)
        else refuse .forged
      | _ => refuse .forged)
    (drop object)

/-- Retrieves the structure of a proxy of this class or one deriving from it. The handle is
given up in any case, before an unknown class is reported and after an object that is no proxy
is. -/
def giveBack (c : ProxyClass) (object : Id) : Act (Option Id) := do
  onUnwind requireRunning (drop object)
  match (← entity object).reportedTag? with
  | none =>
    ensuring
      (do
        check (.notProxy c.sharedTag)
        pure none)
      (drop object)
  | some found =>
    if found = c.sharedTag then c.handOut object
    else
      match c.sharedDerived? found with
      | some d => do
        onUnwind requireRunning (drop object)
        d.handOut object
      | none => do
        drop object
        check (.unexpectedClass found)
        pure none

/-! ## References to the structure alone -/

/-- Takes a reference to the structure of a proxy. -/
def retainTarget (p : SharedProxy) : Act Unit :=
  through p.target Layout.addRef () (retain p.target)

/-- Gives up a reference to the structure of a proxy. -/
def releaseTarget (p : SharedProxy) : Act Bool := do
  return (← through p.target Layout.release 0 (release p.target)) != 0

/-- Asks the structure of a proxy about its references. -/
def askTarget (q : Question) (p : SharedProxy) : Act Bool := do
  return (← through p.target (questionPosition q) 0 (ask q p.target)) != 0

end ObjectBoundary.ProxyClass
