import ObjectBoundary.Act.Check
import ObjectBoundary.Proofs.Ends

/-!
# What the log tells, and acts that only look

The log of a world tells how the counts moved, which objects were destroyed and which checks
failed. An act that only looks leaves all of this alone; it may log other events, and it may be
the first to consult the settings.

* `World.changes`, `World.drops`, `World.failures`: what the log tells.
* `World.Quiet`: nothing has happened that concerns an entity.
* `World.Later`: what no act ever takes back.
* `ends_check`, `ends_require`, `ends_requireRunning`: what checks do.
-/

namespace ObjectBoundary

/-! ## The log -/

/-- The change of the count of an entity that an event tells of. -/
def Event.change? (x : Id) : Event → Option Int
  | .raised y => if y = x then some 1 else none
  | .lowered y => if y = x then some (-1) else none
  | .called y member =>
    if y = x then
      if member = "add_ref" then some 1 else if member = "release" then some (-1) else none
    else none
  | _ => none

def Event.isFailure : Event → Bool
  | .failed _ => true
  | _ => false

/-- The environment held no settings. -/
def Event.isWarning : Event → Bool
  | .fellBack _ => true
  | _ => false

/-- Only checks and the first look at the settings complain. -/
def Event.isComplaint (e : Event) : Bool := e.isFailure || e.isWarning

theorem Event.isComplaint_eq_false {e : Event} :
    e.isComplaint = false ↔ e.isFailure = false ∧ e.isWarning = false :=
  Bool.or_eq_false_iff

namespace World

/-- The changes of the count of an entity, in order. -/
def changes (w : World) (x : Id) : List Int := w.log.filterMap (Event.change? x)

/-- How often a local object was destroyed. -/
def drops (w : World) (x : Id) : Nat := w.log.count (.dropped x)

/-- The failed checks. -/
def failures (w : World) : List Event := w.log.filter Event.isFailure

/-- Other events add nothing to them. -/
theorem failures_emit (w : World) {e : Event} (h : e.isFailure = false) :
    failures { w with log := w.log ++ [e] } = w.failures := by
  simp [failures, h]

/-- The settings in force, or those that the environment will bring into force. -/
def inForce (w : World) : Settings := w.settings.getD (Act.resolve w.environment).1

/-- Shutdown has not begun, or it is not checked for. -/
def IsOpen (w : World) : Prop := w.isShutdown = true → w.inForce.shutdownChecks = false

/-- Shutdown has not begun, or it is not checked for, or failed checks are not fatal. -/
def IsTolerant (w : World) : Prop :=
  w.isShutdown = true → w.inForce.shutdownChecks = true → w.inForce.fatalChecks = false

/-- Shutdown has begun, and the settings in force ask for checks. -/
def IsBarred (w : World) : Prop :=
  w.isShutdown = true ∧ ∃ s, w.settings = some s ∧ s.shutdownChecks = true

/-- The settings in force make failed checks fatal. -/
def IsFatal (w : World) : Prop := ∃ s, w.settings = some s ∧ s.fatalChecks = true

/-- The check of the start of shutdown fails from now on and unwinds. -/
def IsClosed (w : World) : Prop := w.IsBarred ∧ w.IsFatal

/-- The check of the start of shutdown has failed. -/
def Disturbed (e : Failure) (w : World) : Prop := e = .heldAtShutdown ∧ w.IsBarred

theorem IsOpen.isTolerant {w : World} (h : w.IsOpen) : w.IsTolerant := by
  intro hd hs
  rw [h hd] at hs
  cases hs

theorem IsOpen.not_isBarred {w : World} (h : w.IsOpen) : ¬ w.IsBarred := by
  rintro ⟨hd, s, hs, hc⟩
  have := h hd
  rw [inForce, hs, Option.getD_some, hc] at this
  cases this

theorem IsTolerant.not_isClosed {w : World} (h : w.IsTolerant) : ¬ w.IsClosed := by
  rintro ⟨⟨hd, s', hs', hc⟩, s, hs, hf⟩
  cases hs.symm.trans hs'
  have := h hd (by rw [inForce, hs, Option.getD_some, hc])
  rw [inForce, hs, Option.getD_some, hf] at this
  cases this

/-! ## Worlds that move forward -/

/-- What no act takes back: the environment stays, settings in force stay, and shutdown does not
end. -/
structure Later (w w' : World) : Prop where
  environment : w'.environment = w.environment
  settings : ∀ s, w.settings = some s → w'.settings = some s
  isShutdown : w.isShutdown = true → w'.isShutdown = true

instance : IsPreorder World Later where
  refl _ := ⟨rfl, fun _ h => h, fun h => h⟩
  trans _ _ _ h h' :=
    ⟨h'.environment.trans h.environment, fun s hs => h'.settings s (h.settings s hs),
      fun hd => h'.isShutdown (h.isShutdown hd)⟩

theorem Later.isBarred {w w' : World} (h : w.Later w') (hb : w.IsBarred) : w'.IsBarred := by
  obtain ⟨hd, s, hs, hc⟩ := hb
  exact ⟨h.isShutdown hd, s, h.settings s hs, hc⟩

theorem Later.isFatal {w w' : World} (h : w.Later w') (hf : w.IsFatal) : w'.IsFatal :=
  hf.imp fun s hs => ⟨h.settings s hs.1, hs.2⟩

theorem Later.isClosed {w w' : World} (h : w.Later w') (hc : w.IsClosed) : w'.IsClosed :=
  ⟨h.isBarred hc.1, h.isFatal hc.2⟩

/-! ## Quiet changes -/

/-- Nothing has happened that concerns an entity. -/
structure Quiet (w w' : World) : Prop where
  later : w.Later w'
  store : w'.store = w.store
  isShutdown : w'.isShutdown = w.isShutdown
  inForce : w'.inForce = w.inForce
  changes : ∀ x, w'.changes x = w.changes x
  drops : ∀ x, w'.drops x = w.drops x

instance : IsPreorder World Quiet where
  refl w := ⟨refl_of Later w, rfl, rfl, rfl, fun _ => rfl, fun _ => rfl⟩
  trans _ _ _ h h' :=
    ⟨trans_of Later h.later h'.later, h'.store.trans h.store, h'.isShutdown.trans h.isShutdown,
      h'.inForce.trans h.inForce, fun x => (h'.changes x).trans (h.changes x),
      fun x => (h'.drops x).trans (h.drops x)⟩

theorem Quiet.isTolerant {w w' : World} (h : w.Quiet w') (ht : w.IsTolerant) : w'.IsTolerant := by
  intro hd
  rw [h.inForce]
  exact ht (h.isShutdown ▸ hd)

theorem Quiet.isOpen {w w' : World} (h : w.Quiet w') (ho : w.IsOpen) : w'.IsOpen := by
  intro hd
  rw [h.inForce]
  exact ho (h.isShutdown ▸ hd)

end World

namespace Act

variable {α : Type} {w : World} {U : Failure → World → Prop}

/-- An event that tells of no count and no destruction. -/
theorem quiet_emit {e : Event} (hc : ∀ x, e.change? x = none) (hd : ∀ x, e ≠ .dropped x)
    (w : World) : w.Quiet { w with log := w.log ++ [e] } where
  later := ⟨rfl, fun _ h => h, fun h => h⟩
  store := rfl
  isShutdown := rfl
  inForce := rfl
  changes x := by simp [World.changes, hc x]
  drops x := by simp [World.drops, hd x]

theorem respects_emit {e : Event} (hc : ∀ x, e.change? x = none) (hd : ∀ x, e ≠ .dropped x) :
    Respects World.Quiet (emit e) w :=
  respects_modify (quiet_emit hc hd w)

theorem ends_of_quiet {x : Act α} {w' : World} (h : Respects World.Quiet x w') (hq : w.Quiet w') :
    Ends x w' (fun _ w'' => w.Quiet w'') fun _ w'' => w.Quiet w'' :=
  ends_of_respects (R := fun _ w'' => w.Quiet w'')
    (respects_mono (R := World.Quiet) h fun _ h' => trans_of World.Quiet hq h')

theorem respects_crossed (c : Crossing) (t : Tag) :
    Respects World.Quiet (emit (.crossed c t)) w :=
  respects_emit (fun _ => rfl) fun _ => nofun

theorem ends_crossed {c : Crossing} {t : Tag} :
    Ends (emit (.crossed c t)) w (fun _ w' => w.Quiet w') U :=
  ends_modify (quiet_emit (e := .crossed c t) (fun _ => rfl) (fun _ => nofun) w)

/-! ## Settings -/

/-- The settings were consulted, which brings them into force, and nothing else has happened. -/
structure Consults (w w' : World) : Prop where
  quiet : w.Quiet w'
  settings : w'.settings = some w.inForce
  failures : w'.failures = w.failures

theorem settings_apply (phase : Phase) (w : World) :
    ∃ w', settings phase w = (.done w.inForce, w') ∧ Consults w w' := by
  cases h : w.settings with
  | some s =>
    have hs : w.inForce = s := by rw [World.inForce, h]; rfl
    refine ⟨w, ?_, refl_of World.Quiet w, h.trans (congrArg some hs.symm), rfl⟩
    rw [settings_apply_of_some h, hs]
  | none =>
    cases he : resolve w.environment with
    | mk s error =>
      have hs : w.inForce = s := by rw [World.inForce, h, he]; rfl
      have later {l : List Event} :
          w.Later { w with settings := some s, log := l } := by
        refine ⟨rfl, fun t ht => ?_, fun h => h⟩
        rw [h] at ht
        cases ht
      cases error with
      | none =>
        refine ⟨{ w with settings := some s }, ?_, ?_, congrArg some hs.symm, rfl⟩
        · simp only [settings, bind_apply, get, h, he, hs]
          rfl
        · exact ⟨later, rfl, rfl, hs.symm, fun _ => rfl, fun _ => rfl⟩
      | some e =>
        refine ⟨{ w with settings := some s, log := w.log ++ [.fellBack e] }, ?_, ?_,
          congrArg some hs.symm, ?_⟩
        · simp only [settings, bind_apply, get, h, he, hs]
          rfl
        · have quiet := quiet_emit (e := .fellBack e) (fun _ => rfl) (fun _ => by simp) w
          exact ⟨later, rfl, rfl, hs.symm, quiet.changes, quiet.drops⟩
        · exact World.failures_emit w rfl

theorem respects_settings : Respects World.Quiet settings w := by
  intro phase
  obtain ⟨w', h, hc⟩ := settings_apply phase w
  rw [h]
  exact hc.quiet

theorem ends_settings : Ends settings w (fun s w' => s = w.inForce ∧ Consults w w') U := by
  intro phase
  obtain ⟨w', h, hc⟩ := settings_apply phase w
  rw [h]
  exact ⟨rfl, hc⟩

theorem does_settings : Does settings w := by
  intro phase
  obtain ⟨w', h, -⟩ := settings_apply phase w
  exact ⟨_, w', h⟩

/-! ## Checks -/

theorem respects_check (failure : Failure) : Respects World.Quiet (check failure) w := by
  refine respects_bind (respects_emit (fun _ => rfl) fun _ => nofun) fun _ _ _ => ?_
  apply respects_bind respects_settings
  intro s _ _
  split
  · exact respects_unwind _
  · exact respects_pure _

/-- A failed check unwinds, if at all, with its failure. -/
theorem ends_check {failure : Failure} :
    Ends (check failure) w (fun _ _ => True) fun e _ => e = failure := by
  refine ends_bind (P := fun _ _ => True) (fun _ => trivial) fun _ w₁ _ => ?_
  refine ends_bind (P := fun _ _ => True) (ends_mono ends_settings (fun _ _ _ => trivial)
    fun _ _ h => h) fun s w₂ _ => ?_
  split
  · intro phase
    cases phase
    · exact (rfl : failure = failure)
    · trivial
  · exact ends_pure trivial

/-- What unwinds is a failed check that is fatal. -/
theorem ends_check_fatal {failure : Failure} :
    Ends (check failure) w (fun _ _ => True) fun _ w' => w'.IsFatal := by
  refine ends_bind (P := fun _ _ => True) (fun _ => trivial) fun _ w₁ _ => ?_
  refine ends_bind ends_settings fun s w₂ hpost => ?_
  obtain ⟨rfl, h₂⟩ := hpost
  split
  · rename_i hf
    intro phase
    cases phase
    · exact ⟨_, h₂.settings, hf⟩
    · trivial
  · exact ends_pure trivial

/-- Where failed checks are not fatal they are passed over. -/
theorem does_check {failure : Failure} (h : w.inForce.fatalChecks = false) :
    Does (check failure) w := by
  refine does_bind (P := fun _ w' => w.Quiet w') (U := fun _ _ => False) (does_modify _ _)
    (ends_modify (quiet_emit (e := .failed failure) (fun _ => rfl) (fun _ => nofun) w))
    fun _ w₁ h₁ => ?_
  apply does_bind does_settings ends_settings (U := fun _ _ => False)
  intro s w₂ h₂
  have hs : s.fatalChecks = false := by rw [h₂.1, h₁.inForce, h]
  rw [hs]
  exact does_pure _ _

theorem respects_require (condition : Bool) (failure : Failure) :
    Respects World.Quiet (require condition failure) w := by
  unfold require
  split
  · exact respects_pure _
  · exact respects_check _

theorem require_true (failure : Failure) : require true failure = pure () := rfl

/-- A check that does not fail does nothing, and one that fails unwinds with its failure. -/
theorem ends_require {condition : Bool} {failure : Failure} :
    Ends (require condition failure) w
      (fun _ w' => w.Quiet w' ∧ (condition = true → w' = w))
      fun e w' => e = failure ∧ condition = false ∧ w.Quiet w' := by
  cases condition with
  | true => exact ends_pure ⟨refl_of World.Quiet w, fun _ => rfl⟩
  | false =>
    have hcheck : Ends (check failure) w (fun _ _ => True) fun e _ => e = failure := ends_check
    exact ends_mono (ends_and_respects hcheck (respects_check failure)) (fun _ _ h => ⟨h.2, nofun⟩)
      fun _ _ h => ⟨h.1, rfl, h.2⟩

theorem respects_requireRunning : Respects World.Quiet requireRunning w := by
  refine respects_bind respects_settings fun s _ _ => ?_
  split
  · exact respects_bind respects_get fun _ _ _ => respects_require _ _
  · exact respects_pure _

/-- The check of the start of shutdown fails only after it. -/
theorem ends_requireRunning :
    Ends requireRunning w
      (fun _ w' => w.Quiet w' ∧ (w.IsOpen → w'.failures = w.failures))
      fun e w' => World.Disturbed e w' ∧ w.Quiet w' := by
  apply ends_bind ends_settings
  intro _ w₁ hpost
  obtain ⟨rfl, h₁⟩ := hpost
  split
  · rename_i hs
    refine ends_get_bind (ends_mono ends_require ?_ ?_)
    · intro _ w₂ hpost
      obtain ⟨hq, hsame⟩ := hpost
      refine ⟨trans_of World.Quiet h₁.quiet hq, ?_⟩
      intro ho
      have hd : w₁.isShutdown = false := by
        rw [h₁.quiet.isShutdown, Bool.eq_false_iff]
        intro hd
        rw [ho hd] at hs
        cases hs
      rw [hsame (by rw [hd]; rfl), h₁.failures]
    · intro _ w₂ hpost
      obtain ⟨he, hc, hq⟩ := hpost
      have hd : w₁.isShutdown = true := by simpa using hc
      refine ⟨⟨he, hq.isShutdown.trans hd, _, hq.later.settings _ h₁.settings, hs⟩, ?_⟩
      exact trans_of World.Quiet h₁.quiet hq
  · exact ends_pure ⟨h₁.quiet, fun _ => h₁.failures⟩

/-- Where the check cannot unwind it is passed. -/
theorem does_requireRunning (h : w.IsTolerant) : Does requireRunning w := by
  apply does_bind does_settings ends_settings (U := fun _ _ => False)
  intro s w₁ h₁
  split
  · rename_i hs
    apply does_get_bind
    cases hd : w₁.isShutdown with
    | false => exact does_pure _ _
    | true =>
      apply does_check
      rw [h₁.2.quiet.inForce]
      exact h (h₁.2.quiet.isShutdown ▸ hd) (h₁.1 ▸ hs)
  · exact does_pure _ _

end Act

end ObjectBoundary
