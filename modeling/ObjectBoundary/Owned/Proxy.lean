import ObjectBoundary.Act.Disposal

/-!
# Proxies of owned structures

A structure of the far side with a single owner is used on this side through a proxy, which owns
the structure until it is taken out and otherwise deletes it in the end.

* `ProxyClass.adopt`: makes a proxy that owns a structure.
* `ProxyClass.surrender`: takes the structure out of a proxy and destroys the proxy.
* `ProxyClass.reveal`: finds the structure of a proxy, which keeps it.
-/

namespace ObjectBoundary.ProxyClass

open Act

/-- The class deriving from another one whose owned proxies have a tag. -/
def ownedDerived? (c : ProxyClass) (t : Tag) : Option ProxyClass :=
  if c = client ∧ t = child.ownedTag then some child else none

def adopt (c : ProxyClass) (name : String) (s : Id) : Act Id := do
  requireRunning
  let p ← create name (.ownedProxy ⟨c, some s⟩)
  emit (.crossed .received c.ownedTag)
  pure p

/-- An owned proxy of this very class. -/
def ownedProxy (c : ProxyClass) (object : Id) : Act OwnedProxy := do
  match ← entity object with
  | .ownedProxy p => if p.cls = c then pure p else refuse .forged
  | _ => refuse .forged

/-- Takes the structure out of a proxy of this very class and destroys the proxy, which then has
nothing to delete. A structure that cannot be deleted is reported, but handed out. -/
def extract (c : ProxyClass) (object : Id) : Act (Option Id) := do
  let p ← c.ownedProxy object
  put object (.ownedProxy { p with target := none })
  ensuring
    (do
      require p.target.isSome .emptyProxy
      match p.target with
      | none => pure ()
      | some s => require ((← struct s).isSet Layout.del) .undeletable
      emit (.crossed .returned c.ownedTag)
      pure p.target)
    (dispose object)

/-- Retrieves the structure of a proxy of this class or one deriving from it. The object is
destroyed in any case, before an unknown class is reported and after an object that is no proxy
is. -/
def surrender (c : ProxyClass) (object : Id) : Act (Option Id) := do
  onUnwind requireRunning (dispose object)
  match (← entity object).reportedTag? with
  | none =>
    ensuring
      (do
        check (.notProxy c.ownedTag)
        pure none)
      (dispose object)
  | some found =>
    if found = c.ownedTag then c.extract object
    else
      match c.ownedDerived? found with
      | some d => do
        onUnwind requireRunning (dispose object)
        d.extract object
      | none => do
        dispose object
        check (.unexpectedClass found)
        pure none

/-- Finds the structure of a proxy of this class or one deriving from it. -/
def reveal (c : ProxyClass) (object : Id) : Act (Option Id) := do
  requireRunning
  match (← entity object).reportedTag? with
  | none => do
    check (.notProxy c.ownedTag)
    pure none
  | some found =>
    if found = c.ownedTag then
      return (← c.ownedProxy object).target
    else
      match c.ownedDerived? found with
      | some d => do
        requireRunning
        return (← d.ownedProxy object).target
      | none => do
        check (.unexpectedClass found)
        pure none

/-- Takes the structure out of a proxy, which stays. -/
def takeTarget (object : Id) : Act (Option Id) := do
  match ← entity object with
  | .ownedProxy p => do
    put object (.ownedProxy { p with target := none })
    pure p.target
  | _ => refuse .wrongKind

end ObjectBoundary.ProxyClass
