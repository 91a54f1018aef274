import ObjectBoundary.Layout

/-!
# Structures of function members

A structure on the boundary records a size and holds function members, each of which may be
null. Which function a member holds follows from who made the structure, so the structure itself
only says which members are set.

The recorded size is that of the side that allocated the structure. A member that reaches beyond
it is not part of the structure, whatever the memory behind it holds. Nothing keeps the recorded
size from reaching beyond the last member instead: then it covers words that hold no function.

* `Structure.hasMember`: a structure has a member at a position, whatever size it records.
* `Structure.covers`: the word at a position lies within the recorded size.
* `Structure.offers`: the word at a position lies within the recorded size and is not null.
* `Structure.debugText`: the members as they are shown, level by level.
-/

namespace ObjectBoundary

/-- A structure: its layout, the size it records, and which of its members are not null, in the
order of the layout. -/
structure Structure where
  layout : Layout
  size : UInt64
  set : List Bool
deriving DecidableEq

namespace Structure

/-- A structure in which every word is zero. -/
def zeroed (l : Layout) : Structure := ⟨l, 0, l.names.map fun _ => false⟩

/-- A structure that records its full size, with the given members set. -/
def full (l : Layout) (set : List Bool) : Structure := ⟨l, l.byteSize.toUInt64, set⟩

/-- Whether there is a member at a position. The recorded size is not consulted. -/
def hasMember (s : Structure) (position : Nat) : Bool := decide (position < s.layout.names.length)

/-- Whether the word at a position is not null. The recorded size is not consulted. Behind the
members of a wrapper lies its count, which is not zero while it exists, or the mark whether it owns
its object, beside bytes that nobody has set; of neither is it known that it is null. -/
def isSet (s : Structure) (position : Nat) : Bool :=
  !s.hasMember position || s.set.getD position false

/-- Whether the word that begins at an offset lies within the recorded size. -/
def coversWord (s : Structure) (offset : Nat) : Bool :=
  decide (offset + Layout.wordSize ≤ s.size.toNat)

/-- Whether the word at a position lies within the recorded size. -/
def covers (s : Structure) (position : Nat) : Bool := s.coversWord (Layout.offset position)

/-- Whether the word at a position is taken for a function that can be called. -/
def offers (s : Structure) (position : Nat) : Bool := s.covers position && s.isSet position

def withSize (s : Structure) (size : UInt64) : Structure := { s with size := size }

/-- Sets the member at a position to null. -/
def clear (s : Structure) (position : Nat) : Structure :=
  { s with set := s.set.set position false }

/-- What the layout names is a member. -/
theorem hasMember_of_position? {s : Structure} {name : String} {position : Nat}
    (h : s.layout.position? name = some position) : s.hasMember position = true :=
  decide_eq_true (List.idxOf?_eq_some_iff.mp h).1

/-- A word lies within the recorded size if the words up to it do. -/
theorem covers_iff (s : Structure) (position : Nat) :
    s.covers position = true ↔ Layout.wordSize * (position + 2) ≤ s.size.toNat := by
  rw [covers, coversWord, decide_eq_true_iff, Layout.offset, Layout.wordSize]
  omega

/-- What is null stays null. -/
theorem isSet_of_isSet_clear {s : Structure} {i j : Nat} (h : (s.clear i).isSet j = true) :
    s.isSet j = true := by
  rw [isSet, Bool.or_eq_true] at h ⊢
  refine h.imp_right fun h => ?_
  rw [clear, List.getD_eq_getElem?_getD, List.getElem?_set] at h
  split at h
  · split at h <;> cases h
  · rwa [List.getD_eq_getElem?_getD]

/-- Makes the members with the given names not null. -/
def fill (s : Structure) (names : List String) : Structure :=
  { s with set := List.zipWith (fun name b => b || names.contains name) s.layout.names s.set }

/-! ## How a structure is shown -/

/-- A function member is shown without its address. -/
def memberText (name : String) (isSet : Bool) : String :=
  name ++ ": " ++ if isSet then "Some(PTR)" else "None"

/-- A record with a title, shown on one line. -/
def recordText (title : String) (fields : List String) : String :=
  title ++ " \x7b " ++ ", ".intercalate fields ++ " \x7d"

/-- Shows a structure of a layout, given its size and which members are set. -/
def layoutText (size : UInt64) : Layout → List Bool → String
  | .root title members, set =>
    recordText title
      (("size: " ++ toString size.toNat) :: List.zipWith memberText members set)
  | .extending base none _, set => layoutText size base set
  | .extending base (some title) members, set =>
    recordText title
      (("base: " ++ layoutText size base set) ::
        List.zipWith memberText members (set.drop base.names.length))

def debugText (s : Structure) : String := layoutText s.size s.layout s.set

/-! ## Surveys of the members -/

/-- What the recorded size and the null members say about one word of a structure. -/
structure MemberReport where
  name : String
  offset : Nat
  covered : Bool
  /-- Whether a call is impossible. The recorded size, which is no function, has no answer. -/
  missing : Option Bool

/-- The reports on the recorded size and on every function member, in order. -/
def survey (s : Structure) : List MemberReport :=
  ⟨"size", 0, s.coversWord 0, none⟩ ::
    s.layout.names.mapIdx fun i name =>
      ⟨name, Layout.offset i, s.covers i, some (!s.offers i)⟩

end Structure

end ObjectBoundary
