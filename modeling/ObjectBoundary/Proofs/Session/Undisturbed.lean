import ObjectBoundary.Proofs.Session.Balance
import ObjectBoundary.Proofs.Session.Supervision

/-!
# Sessions that shutdown does not disturb

No step takes back that shutdown has begun, nor the settings in force. So if a process is open in
the end, no check of the start of shutdown has failed in it before.

* `State.step_world`: the world that a step leads to.
* `Step.onward`, `State.later_step`: what no step takes back.
* `State.vacant_after`: no step leaves a wrapper vacant.
* `State.all_undisturbed`: an open process was never disturbed.
* `Reachable.undisturbed`: nor was one whose failed checks cannot unwind.
-/

namespace ObjectBoundary.Session

open ObjectBoundary Act

variable {w : World} {s : State} {x : Step} {slots : Slots} {p : Plan}

/-- Whatever a step does, it takes nothing back. -/
theorem Step.onward (h : x.plan slots = .ok p) : Respects World.Onward p.act w := by
  by_cases hx : x = .process .currentSettings
  · subst hx
    cases h
    refine respects_bind (respects_bind onward_settings fun _ _ _ => ?_) fun _ _ _ => ?_
    · exact respects_pure _
    · exact respects_pure _
  · exact (Step.composed h hx).onward w

namespace State

/-- A plan leads to the world that its act leads to, unless it is refused. -/
theorem carryOut_world (s : State) (p : Plan) :
    (s.carryOut p).2.1 = (p.act .normal s.begun).2 ∨ (s.carryOut p).2.1 = s.begun := by
  unfold carryOut begun
  rcases p.act .normal { s.world with log := [] } with ⟨⟨value, slot⟩ | _ | _ | _, w'⟩
  · exact Or.inl rfl
  · exact Or.inl rfl
  · exact Or.inl rfl
  · exact Or.inr rfl

/-- A step that is not carried out changes no entity, and one that is carried out leads to the world
that its act leads to. -/
theorem step_world (s : State) (x : Step) :
    ((s.step x).2.world = s.world ∨ (s.step x).2.world = s.begun) ∨
      ∃ p, x.plan s.slots = .ok p ∧ nameIsFree s.slots p = true ∧
        (s.step x).2.world = (p.act .normal s.begun).2 := by
  cases hp : x.plan s.slots with
  | error misuse =>
    rw [step, hp]
    exact Or.inl (Or.inl rfl)
  | ok p =>
    cases hfree : nameIsFree s.slots p with
    | false =>
      refine Or.inl (Or.inl ?_)
      rw [step, hp]
      simp only [hfree, Bool.false_eq_true, if_false]
    | true =>
      rw [step_of_plan hp hfree]
      rcases s.carryOut_world p with hworld | hworld
      · exact Or.inr ⟨p, rfl, hfree, hworld⟩
      · exact Or.inl (Or.inr hworld)

theorem onward_step (s : State) (x : Step) :
    (s.step x).2.world = s.world ∨ s.begun.Onward (s.step x).2.world := by
  rcases s.step_world x with (hworld | hworld) | ⟨p, hp, -, hworld⟩
  · exact Or.inl hworld
  · rw [hworld]
    exact Or.inr (refl_of World.Onward s.begun)
  · rw [hworld]
    exact Or.inr (Step.onward hp .normal)

/-- No step takes anything back. -/
theorem later_step (s : State) (x : Step) : s.world.Later (s.step x).2.world := by
  rcases s.onward_step x with hworld | honward
  · rw [hworld]
    exact refl_of World.Later s.world
  · have hbegun : s.world.Later s.begun := ⟨rfl, fun _ h => h, fun h => h⟩
    exact trans_of World.Later hbegun honward.later

theorem later_after (s : State) (xs : List Step) : s.world.Later (s.after xs).world := by
  induction xs generalizing s with
  | nil => exact refl_of World.Later s.world
  | cons x xs ih => exact trans_of World.Later (s.later_step x) (ih (s.step x).2)

/-- No step leaves a wrapper vacant. -/
theorem vacant_after (s : State) (xs : List Step) {z : Id}
    (h : (s.after xs).world.store.IsVacant z) : s.world.store.IsVacant z := by
  induction xs generalizing s with
  | nil => exact h
  | cons x xs ih =>
    have hstep := ih (s.step x).2 h
    rcases s.onward_step x with hworld | honward
    · rw [← hworld]
      exact hstep
    · exact honward.vacant z hstep

/-- Where the checks of shutdown do not fail in the end, they have never failed. -/
theorem all_undisturbed {xs : List Step} (h : s.All Proceeds xs)
    (ho : (s.after xs).world.IsOpen) : s.All Undisturbed xs := by
  induction xs generalizing s with
  | nil => trivial
  | cons x xs ih =>
    obtain ⟨hx, hxs⟩ := h
    refine ⟨⟨hx, ?_⟩, ih hxs ho⟩
    intro e _ hd
    apply ho.not_isBarred
    exact ((s.step x).2.later_after xs).isBarred hd.2

end State

/-! ## Processes whose checks cannot unwind -/

/-- What unwinds is a failed check that is fatal. -/
theorem Step.ends_fatal (h : x.plan slots = .ok p) (w : World) :
    Ends p.act w (fun _ _ => True) fun _ w' => w'.IsFatal := by
  by_cases hx : x = .process .currentSettings
  · subst hx
    cases h
    refine ends_bind (P := fun _ _ => True) (ends_bind ends_settings fun _ _ _ => ?_)
      fun _ _ _ => ?_
    · exact ends_pure trivial
    · exact ends_pure trivial
  · exact (Step.composed h hx).ends_fatal w

/-- A check of the start of shutdown that has unwound would do so again. -/
theorem State.Proceeds.undisturbed (h : s.Proceeds x)
    (hnot : ¬ (s.step x).2.world.IsClosed) : s.Undisturbed x := by
  refine ⟨h, fun e houtcome hd => hnot ⟨hd.2, ?_⟩⟩
  obtain ⟨p, hp, -, hcases⟩ := State.proceeds_cases h
  rcases hcases with ⟨value, slot, w', -, hdone, -⟩ | ⟨failure, w', hact, -, hstep⟩
  · rw [hdone] at houtcome
    cases houtcome
  · rw [hstep]
    exact ends_of_unwound (Step.ends_fatal hp s.begun) hact

/-- Unless the check of the start of shutdown can unwind in the end, it has never done so. -/
theorem Reachable.undisturbed {out : Ledger} (h : Reachable State.Proceeds s out)
    (hnot : ¬ s.world.IsClosed) : Reachable State.Undisturbed s out := by
  induction h with
  | initial e c => exact .initial e c
  | @step s out x _ hx ih =>
    exact .step x (ih fun hs => hnot ((s.later_step x).isClosed hs)) (hx.undisturbed hnot)

end ObjectBoundary.Session
