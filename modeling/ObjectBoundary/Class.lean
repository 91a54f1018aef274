import ObjectBoundary.Tag
import ObjectBoundary.Structure

/-!
# Classes of wrappers and proxies

A *wrapper class* exposes local objects of one interface through structures of one layout; a
*proxy class* presents a structure of the far side as a local object. Each class has a tag, and
no two wrapper classes share one. Objects come in two flavours: *shared* objects are reference
counted, *owned* objects have a single owner.

* `SharedClass`, `OwnedClass`: the wrapper classes of the two flavours.
* `ProxyClass`: the two classes of proxies, which exist in both flavours.
* `WrapperClass`: a wrapper class of either flavour.
* `SharedClass.newStruct`, `OwnedClass.newStruct`: the structure that a new wrapper hands out.
-/

namespace ObjectBoundary

/-! ## Interfaces -/

/-- The interfaces under which a shared object can be held. -/
inductive SharedInterface where
  | base
  | client
  | child
  | table
deriving DecidableEq

/-- The interfaces under which an owned object can be held. -/
inductive OwnedInterface where
  | client
  | child
deriving DecidableEq

/-! ## Wrapper classes of shared objects -/

/-- The tags of the classes that install no member of their own into a client structure. -/
def bareSharedTags : List Tag :=
  [⟨2001⟩, ⟨0⟩, ⟨-1⟩, ⟨4⟩, ⟨39⟩, ⟨40⟩, ⟨2147483647⟩, ⟨-2147483648⟩]

/-- The numbers of members of the table classes. -/
def tableWidths : List Nat := [1, 10, 64]

/-- A class of wrappers of shared objects. -/
inductive SharedClass where
  | client
  | child
  /-- A class over client structures that installs no member of its own. -/
  | bare (tag : Tag) (isBare : tag ∈ bareSharedTags)
  /-- A class over tables of numbered members. -/
  | table (width : Nat) (isWidth : width ∈ tableWidths)
deriving DecidableEq

namespace SharedClass

def tag : SharedClass → Tag
  | client => Tag.sharedClient
  | child => Tag.sharedChild
  | bare t _ => t
  | table width _ => ⟨Int32.ofNat (1000 + width)⟩

/-- The interface of the objects that the class wraps. -/
def interface : SharedClass → SharedInterface
  | client => .client
  | child => .child
  | bare _ _ => .client
  | table _ _ => .table

def layout : SharedClass → Layout
  | client => Layout.sharedClient
  | child => Layout.sharedChild
  | bare _ _ => Layout.sharedClient
  | table width _ => Layout.table width

/-- Which of its own members the class installs. -/
def installed : SharedClass → List Bool
  | client => [true]
  | child => [true, true]
  | bare _ _ => [false]
  | table width _ => List.replicate width true

/-- The structure of a new wrapper: the four base members and those of the class. -/
def newStruct (c : SharedClass) : Structure :=
  Structure.full c.layout ([true, true, true, true] ++ c.installed)

/-- The class with a given tag among those that install no member. -/
def ofBareTag? (t : Tag) : Option SharedClass :=
  if h : t ∈ bareSharedTags then some (bare t h) else none

def ofWidth? (width : Nat) : Option SharedClass :=
  if h : width ∈ tableWidths then some (table width h) else none

/-- The classes by the names under which they are asked for. -/
def named? (name : String) : Option SharedClass :=
  match name with
  | "client" => some client
  | "child" => some child
  | "table1" => ofWidth? 1
  | "table10" => ofWidth? 10
  | "table64" => ofWidth? 64
  | _ => bareSharedTags.findSome? fun t =>
      if name = "tag:" ++ toString t.toInt then ofBareTag? t else none

end SharedClass

/-! ## Wrapper classes of owned objects -/

/-- The tags of the classes that install no member of their own into a client structure. -/
def bareOwnedTags : List Tag := [⟨3001⟩, ⟨-7⟩, ⟨5⟩, ⟨38⟩]

/-- A class of wrappers of owned objects. -/
inductive OwnedClass where
  | client
  | child
  /-- A class over client structures that installs no member of its own. -/
  | bare (tag : Tag) (isBare : tag ∈ bareOwnedTags)
deriving DecidableEq

namespace OwnedClass

def tag : OwnedClass → Tag
  | client => Tag.ownedClient
  | child => Tag.ownedChild
  | bare t _ => t

/-- The interface of the objects that the class wraps. -/
def interface : OwnedClass → OwnedInterface
  | client => .client
  | child => .child
  | bare _ _ => .client

def layout : OwnedClass → Layout
  | client => Layout.ownedClient
  | child => Layout.ownedChild
  | bare _ _ => Layout.ownedClient

/-- Which of its own members the class installs. -/
def installed : OwnedClass → List Bool
  | client => [true]
  | child => [true, true]
  | bare _ _ => [false]

/-- The structure of a new wrapper. It can be deleted only if the wrapper owns its object. -/
def newStruct (c : OwnedClass) (owns : Bool) : Structure :=
  Structure.full c.layout (owns :: c.installed)

/-- The class with a given tag among those that install no member. -/
def ofBareTag? (t : Tag) : Option OwnedClass :=
  if h : t ∈ bareOwnedTags then some (bare t h) else none

/-- The classes by the names under which they are asked for. -/
def named? (name : String) : Option OwnedClass :=
  match name with
  | "scoped" => some client
  | "scoped_child" => some child
  | _ => bareOwnedTags.findSome? fun t =>
      if name = "stag:" ++ toString t.toInt then ofBareTag? t else none

end OwnedClass

/-- A wrapper class of either flavour. -/
inductive WrapperClass where
  | shared (c : SharedClass)
  | owned (c : OwnedClass)
deriving DecidableEq

namespace WrapperClass

def tag : WrapperClass → Tag
  | shared c => c.tag
  | owned c => c.tag

def named? (name : String) : Option WrapperClass :=
  (SharedClass.named? name).map shared <|> (OwnedClass.named? name).map owned

end WrapperClass

/-! ## Proxy classes -/

/-- A class of proxies: those of client structures and those of child structures. -/
inductive ProxyClass where
  | client
  | child
deriving DecidableEq

namespace ProxyClass

/-- The tag of the proxies of shared structures. -/
def sharedTag : ProxyClass → Tag
  | client => Tag.sharedClient
  | child => Tag.sharedChild

/-- The tag of the proxies of owned structures. -/
def ownedTag : ProxyClass → Tag
  | client => Tag.ownedClient
  | child => Tag.ownedChild

def sharedInterface : ProxyClass → SharedInterface
  | client => .client
  | child => .child

def ownedInterface : ProxyClass → OwnedInterface
  | client => .client
  | child => .child

def sharedNamed? : String → Option ProxyClass
  | "client" => some client
  | "child" => some child
  | _ => none

def ownedNamed? : String → Option ProxyClass
  | "scoped" => some client
  | "scoped_child" => some child
  | _ => none

end ProxyClass

end ObjectBoundary
