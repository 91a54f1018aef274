import ObjectBoundary.Session.Run
import ObjectBoundary.Proofs.Acts.Calls

/-!
# Who owns the references

A reference to an object is owned by a handle, by a leaked reference or by a wrapper. A reference
to a structure is owned by a proxy or by nobody on this side: the far side has it, and a *ledger*
keeps count of those. Making a structure enters one reference, a proxy that is made of a
structure takes one out, and so on; direct calls enter and take out as they please.

* `Slots.handles`, `Slots.leaks`: the references that slots hold.
* `Step.handed`: what a step enters into the ledger.
* `Reachable`: the states that sessions reach, each with its ledger.
-/

namespace ObjectBoundary.Session

open ObjectBoundary

/-! ## Slots -/

/-- The object of which a slot holds a reference. -/
def Slot.object? : Slot → Option Id
  | .handle o _ => some o
  | .leaked o _ => some o
  | _ => none

def Slot.struct? : Slot → Option Id
  | .struct s => some s
  | _ => none

namespace Slots

/-- The number of handles to an object. -/
def handles (s : Slots) (o : Id) : Nat :=
  s.entries.countP fun e => match e.2 with
    | .handle x _ => x == o
    | _ => false

/-- The number of leaked references to an object. -/
def leaks (s : Slots) (o : Id) : Nat :=
  s.entries.countP fun e => match e.2 with
    | .leaked x _ => x == o
    | _ => false

/-- The number of references to an object that slots hold. -/
def held (s : Slots) (o : Id) : Nat := s.entries.countP fun e => decide (e.2.object? = some o)

theorem held_eq (s : Slots) (o : Id) : s.held o = s.handles o + s.leaks o := by
  unfold held handles leaks
  induction s.entries with
  | nil => rfl
  | cons e rest ih =>
    rw [List.countP_cons, List.countP_cons, List.countP_cons, ih]
    rcases e with ⟨name, _ | _ | _ | _ | _ | _ | _⟩ <;>
      simp [Slot.object?] <;> omega

/-- The structure that an argument names. -/
def structAt (s : Slots) (source : Option String) : Option Id :=
  (source.bind s.find?).bind Slot.struct?

/-- The object to which an argument names a reference. -/
def objectAt (s : Slots) (source : Option String) : Option Id :=
  (source.bind s.find?).bind Slot.object?

end Slots

/-! ## The ledger -/

/-- For every structure, the references to it that nobody on this side owns. -/
abbrev Ledger := Id → Int

namespace State

/-- The structure behind an argument, if a class made it. -/
def wrapperAt (s : State) (c : SharedClass) (source : String) : Option Id :=
  (s.slots.structAt (some source)).filter fun x =>
    decide (s.world.store.wrapperTag? x = some c.tag)

/-- The structure of the proxy behind an argument, if it offers the member at a position. -/
def targetAt (s : State) (source : String) (position : Nat) : Option Id := do
  let o ← s.slots.objectAt (some source)
  let n ← s.world.store.get? o
  match n.entity with
  | .sharedProxy p => s.world.store.callable p.target position
  | _ => none

/-- The structure on which a call acts. -/
def calleeAt (s : State) (source : String) (position : Nat) (r : Receiver) : Option Id := do
  let x ← s.slots.structAt (some source)
  s.world.store.callee? x position
    (match r with
    | .itself => some x
    | .given y => s.slots.structAt y)

end State

/-- What crossing the boundary enters into the ledger, given the slot that was made. -/
def SharedStep.handed (s : State) (made : Slot) : SharedStep → Ledger
  | wrap _ _ _ => credit made.struct? 1
  | unwrap _ source _ => credit (made.object?.bind fun _ => s.slots.structAt source) (-1)
  | receive _ source _ => credit (made.object?.bind fun _ => s.slots.structAt source) (-1)
  | giveBack _ _ _ => credit made.struct? 1
  | retainWrapper c source => credit (s.wrapperAt c source) 1
  | releaseWrapper c source => credit (s.wrapperAt c source) (-1)
  | target .retain source => credit (s.targetAt source Layout.addRef) 1
  | target .release source => credit (s.targetAt source Layout.release) (-1)
  | _ => 0

/-- What a step enters into the ledger once it is done, given the slot that it has made. -/
def Step.handed (s : State) (made : Slot) : Step → Ledger
  | .create (.sharedFar _ _ _) _ => credit made.struct? 1
  | .shared step => step.handed s made
  | .struct (.call source member r) =>
    if member = "add_ref" then credit (s.calleeAt source Layout.addRef r) 1
    else if member = "release" then credit (s.calleeAt source Layout.release r) (-1)
    else 0
  | _ => 0

namespace State

/-- The slot that a step makes. -/
def made (s : State) (x : Step) : Slot :=
  match x.plan s.slots with
  | .ok p => (p.makes.bind (s.step x).2.slots.find?).getD .null
  | .error _ => .null

/-- What a step enters into the ledger. -/
def entry (s : State) (x : Step) : Ledger :=
  match (s.step x).1.outcome with
  | .done _ => x.handed s (s.made x)
  | _ => 0

end State

/-! ## Reachable states -/

/-- A step that neither ends the process nor uses what it must not use. -/
def State.Proceeds (s : State) (x : Step) : Prop :=
  match (s.step x).1.outcome with
  | .done _ | .unwound _ => True
  | _ => False

/-- A step that proceeds and whose checks of the start of shutdown, if any, do not unwind. -/
def State.Undisturbed (s : State) (x : Step) : Prop :=
  s.Proceeds x ∧ ∀ e, (s.step x).1.outcome = .unwound e → ¬ World.Disturbed e (s.step x).2.world

/-- The states that sessions reach by certain steps, with their ledgers. -/
inductive Reachable (allowed : State → Step → Prop) : State → Ledger → Prop
  | initial (e : Environment) (c : Option Settings) : Reachable allowed (.initial e c) 0
  | step {s : State} {out : Ledger} (x : Step) : Reachable allowed s out → allowed s x →
      Reachable allowed (s.step x).2 (out + s.entry x)

/-! ## Steps one after the other -/

namespace State

variable {s : State}

/-- Whether a step is done. -/
def isDone (s : State) (x : Step) : Bool :=
  match (s.step x).1.outcome with
  | .done _ => true
  | _ => false

theorem undisturbed_of_isDone {x : Step} (h : s.isDone x = true) : s.Undisturbed x := by
  unfold isDone at h
  unfold Undisturbed Proceeds
  cases ho : (s.step x).1.outcome with
  | done value => exact ⟨trivial, nofun⟩
  | _ => rw [ho] at h; cases h

/-- The state after some steps. -/
def after (s : State) : List Step → State
  | [] => s
  | x :: xs => (s.step x).2.after xs

/-- All steps are allowed, one after the other. -/
def All (allowed : State → Step → Prop) (s : State) : List Step → Prop
  | [] => True
  | x :: xs => allowed s x ∧ (s.step x).2.All allowed xs

/-- Whether steps are done, one after the other. -/
def areDone (s : State) : List Step → Bool
  | [] => true
  | x :: xs => s.isDone x && (s.step x).2.areDone xs

/-- What steps enter into the ledger, one after the other. -/
def entries (s : State) : List Step → Ledger
  | [] => 0
  | x :: xs => s.entry x + (s.step x).2.entries xs

theorem All.imp {allowed allowed' : State → Step → Prop} {xs : List Step}
    (h : s.All allowed xs) (himp : ∀ s x, allowed s x → allowed' s x) : s.All allowed' xs := by
  induction xs generalizing s with
  | nil => trivial
  | cons x xs ih => exact ⟨himp s x h.1, ih h.2⟩

theorem all_of_areDone {xs : List Step} (h : s.areDone xs = true) : s.All Undisturbed xs := by
  induction xs generalizing s with
  | nil => trivial
  | cons x xs ih =>
    rw [areDone, Bool.and_eq_true] at h
    exact ⟨undisturbed_of_isDone h.1, ih h.2⟩

end State

/-- Steps that are allowed lead from one reachable state to another. -/
theorem Reachable.along {allowed : State → Step → Prop} {s : State} {out : Ledger}
    (h : Reachable allowed s out) {xs : List Step} (hxs : s.All allowed xs) :
    Reachable allowed (s.after xs) (out + s.entries xs) := by
  induction xs generalizing s out with
  | nil => exact (add_zero out).symm ▸ h
  | cons x xs ih =>
    obtain ⟨hx, hxs⟩ := hxs
    have hrest := ih (h.step x hx) hxs
    rwa [add_assoc] at hrest

theorem Reachable.after {s : State} {out : Ledger} (h : Reachable State.Undisturbed s out)
    (xs : List Step) (hxs : s.areDone xs = true) :
    Reachable State.Undisturbed (s.after xs) (out + s.entries xs) :=
  h.along (State.all_of_areDone hxs)

theorem Reachable.proceeds {s : State} {out : Ledger} (h : Reachable State.Undisturbed s out) :
    Reachable State.Proceeds s out := by
  induction h with
  | initial e c => exact .initial e c
  | step x _ hx ih => exact ih.step x hx.1

end ObjectBoundary.Session
