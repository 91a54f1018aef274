import ObjectBoundary.Proofs.Session.Conservation

/-!
# The history of a session

What happens in several steps, one after the other. No entity is destroyed twice in it, and the
logs tell of every local object that is destroyed in it, once.

* `State.logged`: all events of several steps.
* `State.destructions`: how many of the steps destroy an entity.
* `count_dropped`, `destructions_eq`: both agree with what exists before and after.
* `count_dropped_of_isFreed`, `destructions_of_isFreed`: what is gone went once.
-/

namespace ObjectBoundary.Session

open ObjectBoundary

variable {s : State} {out : Ledger} {xs : List Step} {z : Id}

namespace State

/-- The events of several steps, one after the other. -/
def logged (s : State) : List Step → List Event
  | [] => []
  | x :: xs => (s.step x).2.world.log ++ (s.step x).2.logged xs

/-- The number of steps, one after the other, that destroy an entity. -/
def destructions (s : State) (z : Id) : List Step → Nat
  | [] => 0
  | x :: xs => (if s.destroys x z then 1 else 0) + (s.step x).2.destructions z xs

theorem after_append (s : State) (xs ys : List Step) :
    s.after (xs ++ ys) = (s.after xs).after ys := by
  induction xs generalizing s with
  | nil => rfl
  | cons x xs ih => exact ih (s.step x).2

theorem all_append {allowed : State → Step → Prop} (hxs : s.All allowed xs) {ys : List Step}
    (hys : (s.after xs).All allowed ys) : s.All allowed (xs ++ ys) := by
  induction xs generalizing s with
  | nil => exact hys
  | cons x xs ih => exact ⟨hxs.1, ih hxs.2 hys⟩

theorem areDone_append (s : State) (xs ys : List Step) :
    s.areDone (xs ++ ys) = (s.areDone xs && (s.after xs).areDone ys) := by
  induction xs generalizing s with
  | nil => rfl
  | cons x xs ih =>
    show (s.isDone x && (s.step x).2.areDone (xs ++ ys)) = (s.isDone x && _ && _)
    rw [ih, Bool.and_assoc]
    rfl

end State

/-! ## Several steps in balance -/

/-- Steps keep the balance, one after the other. -/
theorem Balanced.along (h : Balanced s out) (hxs : s.All State.Undisturbed xs) :
    Balanced (s.after xs) (out + s.entries xs) := by
  induction xs generalizing s out with
  | nil => exact (add_zero out).symm ▸ h
  | cons x xs ih =>
    obtain ⟨hx, hxs⟩ := hxs
    have hrest := ih (h.step hx) hxs
    rwa [add_assoc] at hrest

theorem Balanced.continues (h : Balanced s out) (hxs : s.All State.Undisturbed xs) :
    s.world.store.Continues (s.after xs).world.store := by
  induction xs generalizing s out with
  | nil => exact .refl _
  | cons x xs ih =>
    obtain ⟨hx, hxs⟩ := hxs
    obtain ⟨δ, hmoved⟩ := h.moved hx
    have hfirst : s.world.store.Continues (s.step x).2.world.store := hmoved.turns.continues
    exact hfirst.trans (ih (h.step hx) hxs)

/-- The logs tell of local objects that are destroyed, each of them once. -/
theorem Balanced.count_dropped (h : Balanced s out) (hxs : s.All State.Undisturbed xs) (z : Id) :
    (s.logged xs).count (.dropped z) + (s.after xs).world.store.standing z =
      s.world.store.standing z := by
  induction xs generalizing s out with
  | nil => exact Nat.zero_add _
  | cons x xs ih =>
    obtain ⟨hx, hxs⟩ := hxs
    obtain ⟨δ, hmoved⟩ := h.moved hx
    have hfirst : (s.step x).2.world.drops z + (s.step x).2.world.store.standing z =
        0 + s.world.store.standing z := hmoved.turns.drops z
    have hrest := ih (h.step hx) hxs
    rw [State.logged, List.count_append]
    change (s.step x).2.world.log.count (.dropped z) + _ = _ at hfirst
    change _ + ((s.step x).2.after xs).world.store.standing z = _
    omega

/-- What this side counts is destroyed once, if it is freed in the end and was not before. -/
theorem Balanced.destructions_eq (h : Balanced s out) (hxs : s.All State.Undisturbed xs)
    (hz : (s.after xs).world.store.IsCounted z) :
    s.destructions z xs + (if s.world.store.isFreed z then 1 else 0) =
      if (s.after xs).world.store.isFreed z then 1 else 0 := by
  induction xs generalizing s out with
  | nil => exact Nat.zero_add _
  | cons x xs ih =>
    obtain ⟨hx, hxs⟩ := hxs
    obtain ⟨δ, hmoved⟩ := h.moved hx
    have hbalanced := h.step hx
    have hfirst : (s.step x).2.world.store.IsCounted z := (hbalanced.continues hxs).isCounted hz
    have hstays : s.world.store.isFreed z = true → (s.step x).2.world.store.isFreed z = true :=
      Store.Continues.isFreed hmoved.turns.continues hfirst
    have hrest := ih hbalanced hxs hz
    change (if s.destroys x z then 1 else 0) + (s.step x).2.destructions z xs + _ =
      if ((s.step x).2.after xs).world.store.isFreed z then 1 else 0
    rw [← hrest, State.destroys]
    cases hbefore : s.world.store.isFreed z with
    | true => simp [hstays hbefore]
    | false =>
      simp only [Bool.not_false, Bool.true_and, Bool.false_eq_true, if_false]
      omega

/-! ## From the start -/

section Start

variable {e : Environment} {c : Option Settings}
  (hxs : (State.initial e c).All State.Undisturbed xs)
  (hfreed : ((State.initial e c).after xs).world.store.isFreed z = true)
include hxs hfreed

/-- A local object that is gone has been dropped once. -/
theorem count_dropped_of_isFreed {n : Node} {v : SharedObject}
    (hn : ((State.initial e c).after xs).world.store.get? z = some n)
    (hv : n.entity = .sharedObject v) :
    ((State.initial e c).logged xs).count (.dropped z) = 1 := by
  have hgone : ((State.initial e c).after xs).world.store.standing z = 0 := by
    rw [Store.standing_eq fun m hm => ⟨v, by cases hn.symm.trans hm; exact hv⟩, hfreed]
    rfl
  have hlogged := (balanced_initial e c).count_dropped hxs z
  rw [hgone] at hlogged
  exact hlogged

/-- What this side counts and is gone has been destroyed once. -/
theorem destructions_of_isFreed {n : Node} {k : Count}
    (hn : ((State.initial e c).after xs).world.store.get? z = some n)
    (hk : n.entity.sharedCount? = some k) : (State.initial e c).destructions z xs = 1 := by
  have hcounted : ((State.initial e c).after xs).world.store.IsCounted z := by
    intro m hm
    cases hn.symm.trans hm
    rw [hk]
    rfl
  have hdestructions := (balanced_initial e c).destructions_eq hxs hcounted
  rw [hfreed] at hdestructions
  exact hdestructions

end Start

end ObjectBoundary.Session
