import ObjectBoundary.Act.Check

/-!
# Using entities

* `Act.entity`: an entity that exists; using another one is refused.
* `Act.put`, `Act.retire`, `Act.create`: changes of the store.
* `Act.through`: calling a function member of a structure, where a null member is skipped.
* `Act.throughOffered`: so it is where members may lie beyond the recorded size.
-/

namespace ObjectBoundary.Act

/-- An entity that exists. -/
def entity (x : Id) : Act Entity := do
  match (← get).store.get? x with
  | none => refuse .unknown
  | some n => if n.live then pure n.entity else refuse .freed

/-- Replaces the state of an entity. -/
def put (x : Id) (e : Entity) : Act Unit := modify fun w =>
  { w with store := w.store.modify x fun n => { n with entity := e } }

/-- Ends the existence of an entity. -/
def retire (x : Id) : Act Unit := modify fun w =>
  { w with store := w.store.modify x fun n => { n with live := false } }

/-- Adds an entity. -/
def create (name : String) (e : Entity) : Act Id := do
  let w ← get
  modify fun w => { w with store := w.store.push ⟨name, e, true⟩ }
  pure w.store.size

/-- An entity and all that lie below it. -/
def chain (x : Id) : Act (List Id) := do
  return (← get).store.chain x

/-- The structure that an entity keeps. -/
def struct (x : Id) : Act Structure := do
  ofOption .wrongKind (← entity x).struct?

/-- Calls the function member of a structure at a position, if it is set. The recorded size is
not consulted. -/
def through {α : Type} (s : Id) (position : Nat) (absent : α) (function : Act α) : Act α := do
  if (← struct s).isSet position then contained function else pure absent

/-- Calls the word at a position of a structure as a function. Where the structure has no member
it is none, and nothing is known of what a call does. -/
def calling {α : Type} (t : Structure) (position : Nat) (function : Act α) : Act α :=
  if t.hasMember position then function else refuse .forged

/-- Calls the function of a structure at a position, if its recorded size covers the word there and
the word is not null. -/
def throughOffered {α : Type} (s : Id) (position : Nat) (absent : α) (function : Act α) :
    Act α := do
  let t ← struct s
  if t.offers position then calling t position (contained function) else pure absent

theorem calling_of_hasMember {α : Type} {t : Structure} {position : Nat}
    (h : t.hasMember position = true) (function : Act α) : calling t position function = function :=
  if_pos h

/-- The number that stands for a truth value in a function of this side. -/
def truth (b : Bool) : Int32 := if b then 1 else 0

@[simp] theorem truth_bne_zero (b : Bool) : (truth b != 0) = b := by cases b <;> decide

end ObjectBoundary.Act
