import ObjectBoundary.Proofs.Acts.Exhaustion
import ObjectBoundary.Proofs.Acts.Reports

/-!
# Destructors that run while a failure unwinds

A check that fails in a destructor while another failure unwinds is reported and passed over, just
as it is where failed checks are not fatal. So a destructor does the same in either case, and it
does it to the end: nothing unwinds out of it, and it does not end the process.

* `Act.PassesOver`: an act does the same while a failure unwinds and where failed checks are not
  fatal.
* `Composed.passesOver`: every composed act does.
* `Act.Lasts`: an act that is done, unless it is refused, while a failure unwinds.
* `Destructor.lasts`: destructors are such acts.
* `Destructor.all`: destructors that run one after the other.
-/

namespace ObjectBoundary

variable {α β : Type}

/-! ## Unwinding and passing over -/

namespace World

/-- The same world, but failed checks are not fatal. -/
def lenient (w : World) : World :=
  { w with settings := w.settings.map fun s => { s with fatalChecks := false } }

theorem lenient_settings {w : World} {s : Settings} (h : w.settings = some s) :
    w.lenient.settings = some { s with fatalChecks := false } := by
  rw [lenient, h, Option.map_some]

theorem not_isFatal_lenient (w : World) : ¬ w.lenient.IsFatal := by
  rintro ⟨s, hs, hfatal⟩
  obtain ⟨t, -, rfl⟩ := Option.map_eq_some_iff.mp hs
  cases hfatal

end World

namespace Act

variable {x : Act α} {w : World} {s : Settings}

/-- An act does the same while a failure unwinds as it does where failed checks are not fatal. -/
def PassesOver (x : Act α) (w : World) : Prop :=
  x .normal w.lenient = ((x .unwinding w).1, (x .unwinding w).2.lenient)

theorem passesOver_bind {f : α → Act β} (hx : PassesOver x w)
    (hf : ∀ a, PassesOver (f a) (x .unwinding w).2) : PassesOver (x >>= f) w := by
  unfold PassesOver at *
  rw [bind_apply, bind_apply, hx]
  generalize x .unwinding w = r at hf
  rcases r with ⟨a | _ | _ | _, w₁⟩
  · exact hf a
  all_goals rfl

/-- The settings are out of sight. -/
theorem passesOver_entity (y : Id) : PassesOver (entity y) w := by
  have hget : w.lenient.store.get? y = w.store.get? y := rfl
  simp only [PassesOver, entity, bind_apply, get, hget]
  cases w.store.get? y with
  | none => rfl
  | some n => cases hlive : n.live <;> simp only [hlive] <;> rfl

/-- A failed check is reported in either case, and nothing unwinds. -/
theorem passesOver_check (hw : w.settings = some s) (failure : Failure) :
    PassesOver (check failure) w := by
  rw [PassesOver, check_apply_of_some (World.lenient_settings hw), check_apply_of_some hw]
  cases s.fatalChecks <;> rfl

theorem passesOver_raise (x : Id) : PassesOver (raise x) w := by
  refine passesOver_bind (passesOver_entity x) fun e => ?_
  cases e.count? with
  | none => rfl
  | some c =>
    rw [ofOption_some_bind]
    cases hfull : c.isFull <;> rfl

/-- Settings in force stay. -/
theorem passesOver_install (hw : w.settings = some s) (t : Settings) :
    PassesOver (install t) w := by
  rw [PassesOver, install_apply_of_some (World.lenient_settings hw), install_apply_of_some hw]

/-- Where failed checks are not fatal nothing unwinds, and so no second failure does. -/
theorem PassesOver.ne_unwound (h : PassesOver x w) (hx : Composed x) (failure : Failure) :
    (x .unwinding w).1 ≠ .unwound failure := by
  intro hunwound
  have hfatal := hx.ends_fatal w.lenient .normal
  rw [h, hunwound] at hfatal
  exact World.not_isFatal_lenient _ hfatal

/-- What a composed act does while a failure unwinds does not depend on what unwinds: it is what it
does where failed checks are not fatal. -/
theorem Composed.passesOver (h : Composed x) (hw : w.settings = some s) : PassesOver x w := by
  induction h generalizing w with
  | @bind α β x f hx _ ihx ihf =>
    refine passesOver_bind (ihx hw) fun a => ihf a ?_
    exact (hx.onward w .unwinding).later.settings s hw
  | raise x => exact passesOver_raise x
  | consult =>
    rw [PassesOver, bind_apply, bind_apply, settings_apply_of_some (World.lenient_settings hw),
      settings_apply_of_some hw]
    rfl
  | install t => exact passesOver_install hw t
  | check failure => exact passesOver_check hw failure
  | change x f =>
    refine passesOver_bind (passesOver_entity x) fun e => ?_
    cases e.struct? <;> rfl
  | vacate x v _ ih => exact passesOver_bind rfl fun _ => ih hw
  | contained _ ih =>
    have := ih hw
    unfold PassesOver at this ⊢
    rw [contained_eq, contained_eq, this]
  | @onUnwind α x d hx _ ihx _ =>
    -- As no second failure unwinds there is nothing to clean up.
    have hne := (ihx hw).ne_unwound hx
    unfold PassesOver Act.onUnwind
    rw [ihx hw]
    generalize x .unwinding w = r at hne
    rcases r with ⟨_ | e | _ | _, w₁⟩
    · rfl
    · exact absurd rfl (hne e)
    all_goals rfl
  | _ => rfl

end Act

/-! ## Destructors last -/

/-- The act was done, or it was refused. -/
def Outcome.Lasts : Outcome α → Prop
  | .done _ | .refused _ => True
  | _ => False

namespace Act

variable {x : Act α} {f : α → Act β} {w : World}

/-- While a failure unwinds the act neither unwinds nor ends the process. -/
def Lasts (x : Act α) : Prop := ∀ w, (x .unwinding w).1.Lasts

theorem lasts_pure (a : α) : Lasts (pure a) := fun _ => trivial

theorem lasts_refuse (m : Misuse) : Lasts (refuse m : Act α) := fun _ => trivial

theorem lasts_modify (g : World → World) : Lasts (modify g) := fun _ => trivial

theorem lasts_get : Lasts get := fun _ => trivial

theorem lasts_bind (hx : Lasts x) (hf : ∀ a, Lasts (f a)) : Lasts (x >>= f) := by
  intro w
  have hfirst := hx w
  rw [bind_apply]
  generalize x .unwinding w = r at hfirst ⊢
  rcases r with ⟨a | _ | _ | _, w₁⟩
  · exact hf a w₁
  · exact hfirst
  · exact hfirst
  · trivial

theorem lasts_ofOption (m : Misuse) (o : Option α) : Lasts (ofOption m o) := by
  cases o with
  | none => exact lasts_refuse m
  | some a => exact lasts_pure a

theorem lasts_entity (y : Id) : Lasts (entity y) := by
  refine lasts_bind lasts_get fun w => ?_
  split
  · exact lasts_refuse _
  · split
    · exact lasts_pure _
    · exact lasts_refuse _

theorem lasts_discard (h : Lasts x) : Lasts (discard x) := lasts_bind h fun _ => lasts_pure ()

theorem lasts_contained (h : Lasts x) : Lasts (contained x) := by
  intro w
  have hx := h w
  rw [contained_eq]
  generalize x .unwinding w = r at hx
  rcases r with ⟨_ | _ | _ | _, w₁⟩ <;> exact hx

theorem lasts_through {s : Id} {position : Nat} {absent : α} (h : Lasts x) :
    Lasts (through s position absent x) := by
  refine lasts_bind (lasts_bind (lasts_entity s) fun _ => lasts_ofOption _ _) fun t => ?_
  split
  · exact lasts_contained h
  · exact lasts_pure _

theorem lasts_settings : Lasts settings := by
  intro w
  obtain ⟨w', happly, -⟩ := settings_apply .unwinding w
  rw [happly]
  trivial

/-- A check that fails while a failure unwinds goes no further. -/
theorem lasts_check (failure : Failure) : Lasts (check failure) := by
  refine lasts_bind (lasts_modify _) fun _ => lasts_bind lasts_settings fun s => ?_
  split
  · exact fun _ => trivial
  · exact lasts_pure ()

theorem lasts_require (condition : Bool) (failure : Failure) :
    Lasts (require condition failure) := by
  unfold require
  split
  · exact lasts_pure ()
  · exact lasts_check failure

theorem lasts_requireRunning : Lasts requireRunning := by
  refine lasts_bind lasts_settings fun s => ?_
  split
  · exact lasts_bind lasts_get fun _ => lasts_require _ _
  · exact lasts_pure ()

theorem lasts_lower (x : Id) : Lasts (lower x) := by
  refine lasts_bind (lasts_entity x) fun e => lasts_bind (lasts_ofOption _ _) fun c => ?_
  refine lasts_bind (lasts_modify _) fun _ => lasts_bind (lasts_modify _) fun _ => ?_
  exact lasts_bind (lasts_require _ _) fun _ => lasts_pure _

theorem lasts_releaseAlong (xs : List Id) : Lasts (releaseAlong xs) := by
  have last {x : Id} {t : Act Unit} (ht : Lasts t) :
      Lasts
        (do
          let last ← lower x
          if last then
            retire x
            t
          pure (truth last)) := by
    refine lasts_bind (lasts_lower x) fun b => ?_
    split
    · exact lasts_bind (lasts_modify _) fun _ => lasts_bind ht fun _ => lasts_pure _
    · exact lasts_pure _
  induction xs with
  | nil => exact lasts_refuse _
  | cons x below ih =>
    refine lasts_bind (lasts_entity x) fun e => ?_
    cases e with
    | sharedObject o => exact last (lasts_modify _)
    | sharedWrapper v => exact lasts_bind (lasts_discard ih) fun _ => last lasts_requireRunning
    | sharedProxy p =>
      exact lasts_bind (lasts_discard (lasts_through ih)) fun _ => last lasts_requireRunning
    | sharedFar f =>
      exact lasts_bind (lasts_modify _) fun _ => lasts_bind (lasts_modify _) fun _ => lasts_pure _
    | _ => exact lasts_refuse _

theorem lasts_disposeAlong (xs : List Id) : Lasts (disposeAlong xs) := by
  induction xs with
  | nil => exact lasts_refuse _
  | cons x below ih =>
    have expires {t : Act Unit} (ht : Lasts t) :
        Lasts (retire x >>= fun _ => requireRunning >>= fun _ => t) :=
      lasts_bind (lasts_modify _) fun _ => lasts_bind lasts_requireRunning fun _ => ht
    refine lasts_bind (lasts_entity x) fun e => ?_
    cases e with
    | ownedObject o => exact lasts_bind (lasts_modify _) fun _ => lasts_modify _
    | ownedWrapper v =>
      apply expires
      split
      · exact ih
      · exact lasts_pure ()
    | ownedProxy p =>
      apply expires
      cases p.target with
      | none => exact lasts_pure ()
      | some s => exact lasts_through ih
    | ownedFar f => exact lasts_bind (lasts_modify _) fun _ => lasts_modify _
    | _ => exact lasts_refuse _

/-- What is done along the chain of an entity. -/
theorem lasts_along {along : List Id → Act α} (x : Id) (h : ∀ xs, Lasts (along xs)) :
    Lasts (chain x >>= along) :=
  lasts_bind (lasts_bind lasts_get fun _ => lasts_pure _) h

end Act

namespace Destructor

open Act

theorem composed (d : Destructor) : Composed d.act := by
  cases d with
  | handle x => exact composed_drop x
  | owner x => exact composed_dispose x
  | guard text => exact .bind (.check _) fun _ => .emit rfl

theorem lasts (d : Destructor) : Lasts d.act := by
  cases d with
  | handle x => exact lasts_discard (lasts_along x lasts_releaseAlong)
  | owner x => exact lasts_along x lasts_disposeAlong
  | guard text => exact lasts_bind (lasts_check _) fun _ => lasts_modify _

/-- Runs destructors, one after the other. -/
def all : List Destructor → Act Unit
  | [] => pure ()
  | d :: ds => d.act >>= fun _ => all ds

theorem all_concat (ds : List Destructor) (d : Destructor) :
    all (ds ++ [d]) = all ds >>= fun _ => d.act := by
  induction ds with
  | nil =>
    show (d.act >>= fun _ => pure ()) = d.act
    exact bind_pure_unit
  | cons e ds ih =>
    show (e.act >>= fun _ => all (ds ++ [d])) = (e.act >>= fun _ => all ds) >>= fun _ => d.act
    rw [ih, bind_assoc]

theorem composed_all (ds : List Destructor) : Composed (all ds) := by
  induction ds with
  | nil => exact .pure ()
  | cons d ds ih => exact .bind d.composed fun _ => ih

theorem lasts_all (ds : List Destructor) : Lasts (all ds) := by
  induction ds with
  | nil => exact lasts_pure ()
  | cons d ds ih => exact lasts_bind d.lasts fun _ => ih

end Destructor

end ObjectBoundary
