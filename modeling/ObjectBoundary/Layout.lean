/-!
# Layouts of structures

A structure exchanged across the boundary is a word that records its size in bytes, followed by
one word for each function member. The structure of a derived interface begins with the
structure of its base and appends members, so the members of all bases come first, in order.

* `Layout.names`: all members, those of the bases first.
* `Layout.byteSize`: the size of the whole structure.
* `Layout.offset`: where a member lies; the size itself lies at 0.
-/

namespace ObjectBoundary

/-- The layout of a structure: its members by name, and how it nests its base. -/
inductive Layout where
  /-- A structure without a base. -/
  | root (title : String) (members : List String)
  /-- A structure that begins with its base. Without a title it is shown as its base. -/
  | extending (base : Layout) (title : Option String) (members : List String)
deriving DecidableEq

namespace Layout

/-- The bytes of one word. -/
def wordSize : Nat := 8

/-- The function members in order, those of the bases first. -/
def names : Layout → List String
  | root _ members => members
  | extending base _ members => base.names ++ members

/-- The size of a structure of this layout: the recorded size and the function members. -/
def byteSize (l : Layout) : Nat := wordSize * (1 + l.names.length)

/-- The offset of the function member at a position, counted from zero. -/
def offset (position : Nat) : Nat := wordSize * (1 + position)

/-- The position of a function member. -/
def position? (l : Layout) (name : String) : Option Nat := l.names.idxOf? name

/-! ## Positions of members -/

/-- The position of `add_ref` in a shared structure. -/
def addRef : Nat := 0

/-- The position of `release` in a shared structure. -/
def release : Nat := 1

/-- The position of `has_one_ref` in a shared structure. -/
def hasOneRef : Nat := 2

/-- The position of `has_at_least_one_ref` in a shared structure. -/
def hasAtLeastOneRef : Nat := 3

/-- The position of the first member of an interface in a shared structure. -/
def sharedFirst : Nat := 4

/-- The position of `del` in an owned structure. -/
def del : Nat := 0

/-- The position of the first member of an interface in an owned structure. -/
def ownedFirst : Nat := 1

/-! ## The layouts of the interfaces -/

/-- The base of all reference counted structures. -/
def sharedBase : Layout :=
  root "RawBaseRefCounted" ["add_ref", "release", "has_one_ref", "has_at_least_one_ref"]

def sharedClient : Layout :=
  extending sharedBase (some "RawTranslatorTestRefPtrClient") ["get_value"]

def sharedChild : Layout :=
  extending sharedClient (some "RawTranslatorTestRefPtrClientChild") ["get_other_value"]

/-- A reference counted structure with `width` numbered members. -/
def table (width : Nat) : Layout :=
  extending sharedBase none ((List.range width).map fun i => "f" ++ toString i)

/-- The base of all scoped structures. -/
def ownedBase : Layout := root "RawBaseScoped" ["del"]

def ownedClient : Layout :=
  extending ownedBase (some "RawTranslatorTestScopedClient") ["get_value"]

def ownedChild : Layout :=
  extending ownedClient (some "RawTranslatorTestScopedClientChild") ["get_other_value"]

/-- The layouts by the names under which they are asked for. -/
def named? : String → Option Layout
  | "base_ref_counted" => some sharedBase
  | "base_scoped" => some ownedBase
  | "client" => some sharedClient
  | "child" => some sharedChild
  | "scoped" => some ownedClient
  | "scoped_child" => some ownedChild
  | _ => none

end Layout

end ObjectBoundary
