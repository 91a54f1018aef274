import ObjectBoundary.Count
import ObjectBoundary.Event

/-!
# Entities

What has an identity on the boundary: the objects of this side, the wrappers and proxies that
carry objects across, the structures that the far side made, and two small devices that count
and watch by themselves.

* `Entity`: the kinds of entities, each with its state.
* `Entity.below?`: the entity that another one refers to.
* `Node.text`: the state of an entity as it is shown.
-/

namespace ObjectBoundary

/-! ## Objects of this side -/

/-- What an object of this side answers through its interface. -/
inductive Behavior where
  | client (value : Int32)
  | child (value other : Int32)
  /-- Answers every index with its sum with the value, which wraps. -/
  | table (value : Int32)
deriving DecidableEq

/-- The answer of the interface function at a position, counted from zero. -/
def Behavior.answer? : Behavior → Nat → Option Int32
  | client value, 0 => some value
  | child value _, 0 => some value
  | child _ other, 1 => some other
  | table value, index => some (value + Int32.ofNat index)
  | _, _ => none

/-- An object of this side. -/
structure LocalObject where
  behavior : Behavior
  /-- The tag that the object reports, although it is no proxy. -/
  claim : Option Tag
deriving DecidableEq

/-- A reference counted object. -/
structure SharedObject where
  object : LocalObject
  count : Count
deriving DecidableEq

/-! ## Wrappers and proxies -/

/-- A wrapper of a shared object. Each reference to the wrapper owns one to the object. -/
structure SharedWrapper where
  cls : SharedClass
  object : Id
  struct : Structure
  count : Count
deriving DecidableEq

/-- A wrapper of an owned object, which it either owns or borrows. -/
structure OwnedWrapper where
  cls : OwnedClass
  /-- The object, until it is taken back. -/
  object : Option Id
  struct : Structure
  owns : Bool
deriving DecidableEq

/-- A proxy of a shared structure. Each reference to the proxy owns one to the structure. -/
structure SharedProxy where
  cls : ProxyClass
  target : Id
  count : Count
deriving DecidableEq

/-- A proxy of an owned structure. -/
structure OwnedProxy where
  cls : ProxyClass
  /-- The structure, until it is taken. -/
  target : Option Id
deriving DecidableEq

/-! ## Structures of the far side -/

/-- What the functions of a structure of the far side answer. -/
structure FarAnswers where
  value : Int32
  other : Int32
  /-- The number that stands for yes. -/
  truthy : Int32
deriving DecidableEq

/-- A reference counted structure of the far side. Its memory is never reclaimed, so its count
may fall below zero. -/
structure SharedFar where
  answers : FarAnswers
  struct : Structure
  references : Int
  /-- Whether the count has ever been zero. -/
  freed : Bool
deriving DecidableEq

/-- A structure of the far side with a single owner. -/
structure OwnedFar where
  answers : FarAnswers
  struct : Structure
  /-- How often the structure was deleted. -/
  deletions : Nat
deriving DecidableEq

/-- The name and the answer of the interface function at an index. -/
def FarAnswers.value? (a : FarAnswers) : Nat → Option (String × Int32)
  | 0 => some ("get_value", a.value)
  | 1 => some ("get_other_value", a.other)
  | _ => none

/-- Whether the count of a structure of the far side is as asked. -/
def SharedFar.holds (f : SharedFar) : Question → Bool
  | .unique => decide (f.references = 1)
  | .referenced => decide (1 ≤ f.references)

/-- What a structure of the far side says about its references. -/
def SharedFar.answer (f : SharedFar) (q : Question) : Int32 :=
  if f.holds q then f.answers.truthy else 0

/-! ## Entities -/

inductive Entity where
  | sharedObject (o : SharedObject)
  | ownedObject (o : LocalObject)
  | sharedWrapper (w : SharedWrapper)
  | ownedWrapper (w : OwnedWrapper)
  | sharedProxy (p : SharedProxy)
  | ownedProxy (p : OwnedProxy)
  | sharedFar (f : SharedFar)
  | ownedFar (f : OwnedFar)
  | counter (count : Count)
  | checker (isShutdown : Bool)
deriving DecidableEq

namespace Entity

/-- The entity to which another one refers: the object of a wrapper, the structure of a proxy. -/
def below? : Entity → Option Id
  | sharedWrapper w => some w.object
  | ownedWrapper w => w.object
  | sharedProxy p => some p.target
  | ownedProxy p => p.target
  | _ => none

/-- The reference count that this side keeps for an entity. -/
def count? : Entity → Option Count
  | sharedObject o => some o.count
  | sharedWrapper w => some w.count
  | sharedProxy p => some p.count
  | counter c => some c
  | _ => none

def withCount (c : Count) : Entity → Entity
  | sharedObject o => sharedObject { o with count := c }
  | sharedWrapper w => sharedWrapper { w with count := c }
  | sharedProxy p => sharedProxy { p with count := c }
  | counter _ => counter c
  | e => e

/-- The structure that an entity keeps in memory. -/
def struct? : Entity → Option Structure
  | sharedWrapper w => some w.struct
  | ownedWrapper w => some w.struct
  | sharedFar f => some f.struct
  | ownedFar f => some f.struct
  | _ => none

def withStruct (s : Structure) : Entity → Entity
  | sharedWrapper w => sharedWrapper { w with struct := s }
  | ownedWrapper w => ownedWrapper { w with struct := s }
  | sharedFar f => sharedFar { f with struct := s }
  | ownedFar f => ownedFar { f with struct := s }
  | e => e

@[simp] theorem below?_withCount (c : Count) (e : Entity) :
    (e.withCount c).below? = e.below? := by
  cases e <;> rfl

@[simp] theorem below?_withStruct (s : Structure) (e : Entity) :
    (e.withStruct s).below? = e.below? := by
  cases e <;> rfl

theorem count?_withCount (c : Count) (e : Entity) :
    (e.withCount c).count? = e.count?.map fun _ => c := by
  cases e <;> rfl

@[simp] theorem count?_withStruct (s : Structure) (e : Entity) :
    (e.withStruct s).count? = e.count? := by
  cases e <;> rfl

/-- The tag of the class that made a structure, which only wrappers keep beside it. -/
def wrapperTag? : Entity → Option Tag
  | sharedWrapper w => some w.cls.tag
  | ownedWrapper w => some w.cls.tag
  | _ => none

/-- The tag that an object reports. A proxy reports the tag of its class. -/
def reportedTag? : Entity → Option Tag
  | sharedObject o => o.object.claim
  | ownedObject o => o.claim
  | sharedProxy p => some p.cls.sharedTag
  | ownedProxy p => some p.cls.ownedTag
  | _ => none

end Entity

/-! ## Nodes -/

/-- An entity with its name and whether it still exists. What no longer exists keeps the state
that it had in the end. -/
structure Node where
  name : String
  entity : Entity
  live : Bool
deriving DecidableEq

/-- A checker as it is shown. -/
def checkerText (isShutdown : Bool) : String :=
  "ShutdownChecker \x7b is_shutdown: " ++ Settings.switchText isShutdown ++ " \x7d"

namespace Node

private def existing (live : Bool) (text gone : String) : String := if live then text else gone

/-- The state of an entity as it is shown. -/
def text (n : Node) : String :=
  match n.entity with
  | .sharedObject o => existing n.live o.count.text "dropped"
  | .ownedObject _ => existing n.live "live" "dropped"
  | .sharedWrapper w => existing n.live w.count.text "freed"
  | .ownedWrapper _ => existing n.live "live" "freed"
  | .sharedProxy p => existing n.live p.count.text "freed"
  | .ownedProxy _ => existing n.live "live" "freed"
  | .sharedFar f => "refs=" ++ toString f.references ++ if f.freed then " freed" else ""
  | .ownedFar f => "deleted=" ++ toString f.deletions
  | .counter c => c.text
  | .checker b => checkerText b

end Node

end ObjectBoundary
