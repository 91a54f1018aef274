import ObjectBoundary.Inspection

/-!
# Slots of a session

A session keeps what its steps made under names: handles, objects that it owns, structures that
it knows. A slot is a plain note of what is held; the entity itself is in the store.

* `Slots.find?`, `Slots.without`, `Slots.add`: slots by name, the latest first.
* `Slots.handle?` and its like: a slot that must hold something of one kind, or nothing.
-/

namespace ObjectBoundary.Session

open ObjectBoundary

/-- What a session holds under a name. -/
inductive Slot where
  /-- Nothing: a null pointer, or no object. -/
  | null
  /-- A reference to a shared object. -/
  | handle (object : Id) (view : SharedInterface)
  /-- A reference to a shared object that nothing gives up by itself. -/
  | leaked (object : Id) (view : SharedInterface)
  /-- An owned object. -/
  | owner (object : Id) (view : OwnedInterface)
  /-- A borrowing wrapper. -/
  | loan (wrapper : Id)
  /-- A structure. Knowing it is no reference to it. -/
  | struct (s : Id)
  /-- A counter or checker. -/
  | device (x : Id)
deriving DecidableEq

/-- Slots by name. -/
structure Slots where
  entries : List (String × Slot)

namespace Slots

def empty : Slots := ⟨[]⟩

def find? (s : Slots) (name : String) : Option Slot := s.entries.lookup name

def without (s : Slots) (name : String) : Slots := ⟨s.entries.filter fun e => e.1 != name⟩

def add (s : Slots) (name : String) (slot : Slot) : Slots := ⟨(name, slot) :: s.entries⟩

/-- The slot added last under a name is the one found. -/
theorem find?_add (s : Slots) (name other : String) (slot : Slot) :
    (s.add name slot).find? other = if other = name then some slot else s.find? other := by
  show ((name, slot) :: s.entries).lookup other = _
  rw [List.lookup_cons]
  by_cases h : other = name
  · simp [h]
  · have hne : (other == name) = false := beq_eq_false_iff_ne.mpr h
    rw [hne, if_neg h]
    rfl

/-- All slots of a name go at once. -/
theorem find?_without (s : Slots) (name other : String) :
    (s.without name).find? other = if other = name then none else s.find? other := by
  show (s.entries.filter fun e => e.1 != name).lookup other =
    if other = name then none else s.entries.lookup other
  induction s.entries with
  | nil => simp
  | cons e rest ih =>
    rw [List.filter_cons, List.lookup_cons]
    by_cases hn : e.1 = name
    · have hdrop : (e.1 != name) = false := by simp [hn]
      rw [hdrop, if_neg Bool.false_ne_true, ih]
      by_cases ho : other = name
      · rw [if_pos ho, if_pos ho]
      · have hne : (other == e.1) = false := beq_eq_false_iff_ne.mpr (hn ▸ ho)
        rw [if_neg ho, if_neg ho, hne]
    · have hkeep : (e.1 != name) = true := bne_iff_ne.mpr hn
      rw [if_pos hkeep, List.lookup_cons, ih]
      by_cases he : other = e.1
      · have hname : other ≠ name := he ▸ hn
        rw [if_neg hname, if_neg hname]
      · have hne : (other == e.1) = false := beq_eq_false_iff_ne.mpr he
        rw [hne]

/-! ## What a slot must hold -/

/-- The slot that an argument names. No name stands for a null pointer. -/
def argument (s : Slots) : Option String → Except Misuse Slot
  | none => .ok .null
  | some name =>
    match s.find? name with
    | some slot => .ok slot
    | none => .error .unknown

/-- A handle, or none. -/
def handle? (s : Slots) (name : Option String) : Except Misuse (Option (Id × SharedInterface)) := do
  match ← s.argument name with
  | .null => .ok none
  | .handle object view => .ok (some (object, view))
  | _ => .error .wrongKind

/-- An owned object, or none. -/
def owner? (s : Slots) (name : Option String) : Except Misuse (Option (Id × OwnedInterface)) := do
  match ← s.argument name with
  | .null => .ok none
  | .owner object view => .ok (some (object, view))
  | _ => .error .wrongKind

/-- A structure, or none. -/
def struct? (s : Slots) (name : Option String) : Except Misuse (Option Id) := do
  match ← s.argument name with
  | .null => .ok none
  | .struct x => .ok (some x)
  | _ => .error .wrongKind

private def present {α : Type} : Option α → Except Misuse α
  | some a => .ok a
  | none => .error .wrongKind

def handle (s : Slots) (name : String) : Except Misuse (Id × SharedInterface) := do
  present (← s.handle? (some name))

def owner (s : Slots) (name : String) : Except Misuse (Id × OwnedInterface) := do
  present (← s.owner? (some name))

def struct (s : Slots) (name : String) : Except Misuse Id := do
  present (← s.struct? (some name))

def leaked (s : Slots) (name : String) : Except Misuse (Id × SharedInterface) := do
  match ← s.argument (some name) with
  | .leaked object view => .ok (object, view)
  | _ => .error .wrongKind

def loan (s : Slots) (name : String) : Except Misuse Id := do
  match ← s.argument (some name) with
  | .loan w => .ok w
  | _ => .error .wrongKind

def device (s : Slots) (name : String) : Except Misuse Id := do
  match ← s.argument (some name) with
  | .device x => .ok x
  | _ => .error .wrongKind

end Slots

end ObjectBoundary.Session
