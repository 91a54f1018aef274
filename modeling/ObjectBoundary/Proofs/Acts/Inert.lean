import ObjectBoundary.Proofs.Acts.Accord
import ObjectBoundary.Proofs.Acts.Reports

/-!
# Worlds that were not told of the start of shutdown

Unless failed checks are fatal and the start of shutdown is checked for, an act under supervision
goes the same way whether shutdown has begun or not. All that may come in addition are reports.

* `Thinned`: a log without some of its reports.
* `World.Untold`: a world beside the one that was not told of the start of shutdown.
* `Supervised.inert`: acts under supervision go the same way in both.
-/

namespace ObjectBoundary

variable {α β : Type} {c : Settings}

/-! ## Logs with and without reports -/

/-- A log and the same log without some of its reports, of which there are none if the start of
shutdown is not checked for. -/
inductive Thinned (c : Settings) : List Event → List Event → Prop
  | nil : Thinned c [] []
  | both {l l' : List Event} (e : Event) : Thinned c l l' → Thinned c (l ++ [e]) (l' ++ [e])
  | report {l l' : List Event} : c.shutdownChecks = true → Thinned c l l' →
    Thinned c (l ++ [.failed .heldAtShutdown]) l'

/-! ## Worlds told and untold -/

/-- Worlds with the same settings in force and the same entities. In the second one shutdown has not
begun, and only reports of it are missing there. -/
inductive World.Untold (c : Settings) : World → World → Prop
  | intro (e : Environment) (st : Store) {isShutdown : Bool} {log log' : List Event} :
    (isShutdown = true → c.shutdownChecks = true) → Thinned c log log' →
      World.Untold c ⟨e, some c, isShutdown, st, log⟩ ⟨e, some c, false, st, log'⟩

namespace World.Untold

variable {w w' : World}

theorem store (h : w.Untold c w') : w'.store = w.store := by
  cases h
  rfl

theorem settings (h : w.Untold c w') : w.settings = some c := by
  cases h
  rfl

theorem settings' (h : w.Untold c w') : w'.settings = some c := by
  cases h
  rfl

/-- Where the start of shutdown is not checked for it is not recorded. -/
theorem isShutdown_eq (h : w.Untold c w') (hs : c.shutdownChecks = false) :
    w.isShutdown = w'.isShutdown := by
  cases h with
  | @intro e st isShutdown log log' hd hl =>
    cases isShutdown with
    | false => rfl
    | true => exact absurd (hs.symm.trans (hd rfl)) Bool.false_ne_true

theorem log (h : w.Untold c w') : Thinned c w.log w'.log := by
  cases h
  assumption

/-- The worlds stay alike if both log an event. -/
theorem emit (h : w.Untold c w') (e : Event) :
    World.Untold c { w with log := w.log ++ [e] } { w' with log := w'.log ++ [e] } := by
  cases h with
  | intro _ st hd hl => exact .intro _ st hd (hl.both e)

/-- The start of shutdown may be recorded in the first world. -/
theorem signalled (h : w.Untold c w') :
    World.Untold c { w with isShutdown := w.isShutdown || c.shutdownChecks } w' := by
  cases h with
  | intro e st hd hl =>
    refine .intro e st (fun hor => ?_) hl
    exact (Bool.or_eq_true_iff.mp hor).elim hd id

end World.Untold

namespace Act

variable {x : Act α} {w w' : World} {ph : Phase} {k : Known}

/-! ## Checks -/

theorem alongside_check (h : w.Untold c w') (failure : Failure) :
    Alongside (World.Untold c) (check failure ph w) (check failure ph w') := by
  have hreported := h.emit (.failed failure)
  rw [check_apply_of_some h.settings, check_apply_of_some h.settings']
  cases c.fatalChecks <;> cases ph <;> exact ⟨rfl, hreported⟩

/-- The check of the start of shutdown is passed in both worlds, with a report at most. -/
theorem alongside_requireRunning (hc : c.fatalChecks = true → c.shutdownChecks = false)
    (h : w.Untold c w') :
    Alongside (World.Untold c) (requireRunning ph w) (requireRunning ph w') := by
  rw [requireRunning_apply_of_some h.settings, requireRunning_apply_of_some h.settings']
  cases hs : c.shutdownChecks with
  | false => exact ⟨rfl, h⟩
  | true =>
    have hf : c.fatalChecks = false := by
      rw [← Bool.not_eq_true]
      intro hf
      exact Bool.false_ne_true ((hc hf).symm.trans hs)
    cases h with
    | @intro e st isShutdown log log' hd hl =>
      cases isShutdown with
      | false => exact ⟨rfl, .intro e st hd hl⟩
      | true =>
        show Alongside (World.Untold c) (check .heldAtShutdown ph ⟨e, some c, true, st, log⟩) _
        rw [check_apply_of_some rfl, hf]
        exact ⟨rfl, .intro e st hd (hl.report hs)⟩

theorem alongside_settings (h : w.Untold c w') :
    Alongside (World.Untold c) (settings ph w) (settings ph w') := by
  rw [settings_apply_of_some h.settings, settings_apply_of_some h.settings']
  exact ⟨rfl, h⟩

theorem alongside_install (h : w.Untold c w') (s : Settings) :
    Alongside (World.Untold c) (install s ph w) (install s ph w') := by
  rw [install_apply_of_some h.settings, install_apply_of_some h.settings']
  exact ⟨rfl, h⟩

/-! ## Supervised acts -/

theorem accordance_untold (hc : c.fatalChecks = true → c.shutdownChecks = false) :
    Accordance (World.Untold c) fun _ _ => False where
  environment h := by
    cases h
    rfl
  store h := h.store
  replace h st := by
    cases h with
    | intro e _ hd hl => exact .intro e st hd hl
  emit h e _ := h.emit e
  apart h _ _ := h
  check h failure _ := .of_alongside (alongside_check h failure)
  running h _ := .of_alongside (alongside_requireRunning hc h)

/-- Whether shutdown has begun makes no difference to what follows, unless the check of it can
unwind. -/
theorem Supervised.inert {x : Act α} (h : Supervised ph k x)
    (hc : c.fatalChecks = true → c.shutdownChecks = false) (hw : w.Untold c w') :
    Alongside (World.Untold c) (x ph w) (x ph w') :=
  (h.accords (accordance_untold hc) hw).alongside id

/-! ## The start of shutdown -/

/-- Signalling the start of shutdown records it if it is checked for. A second signal fails a check,
but goes on. -/
theorem signalShutdown_apply (hc : c.fatalChecks = true → c.shutdownChecks = false)
    (hw : w.settings = some c) (ph : Phase) :
    ∃ log, signalShutdown ph w =
      (.done (), { w with isShutdown := w.isShutdown || c.shutdownChecks, log := log }) := by
  unfold signalShutdown
  rw [bind_apply, settings_apply_of_some hw]
  dsimp only
  cases hs : c.shutdownChecks with
  | false =>
    refine ⟨w.log, ?_⟩
    rw [Bool.or_false]
    rfl
  | true =>
    have hf : c.fatalChecks = false := by
      rw [← Bool.not_eq_true]
      intro hf
      exact Bool.false_ne_true ((hc hf).symm.trans hs)
    rw [Bool.or_true]
    let w₁ : World := { w with isShutdown := true }
    have hw₁ : w₁.settings = some c := hw
    show ∃ log, (require (!w.isShutdown) .shutdownTwice >>= fun _ => emit .shutdownArmed) ph w₁ =
      (.done (), { w₁ with log := log })
    cases w.isShutdown with
    | false => exact ⟨_, rfl⟩
    | true =>
      show ∃ log, (check .shutdownTwice >>= fun _ => emit .shutdownArmed) ph w₁ = _
      rw [bind_apply, check_apply_of_some hw₁, hf]
      exact ⟨_, rfl⟩

theorem shutDown_apply (hc : c.fatalChecks = true → c.shutdownChecks = false)
    (hw : w.settings = some c) (ph : Phase) :
    ∃ log, shutDown ph w =
      (.done (), { w with isShutdown := w.isShutdown || c.shutdownChecks, log := log }) := by
  let w₁ : World := { w with log := w.log ++ [.shutdownBegan] }
  have hw₁ : w₁.settings = some c := hw
  obtain ⟨log, happly⟩ := signalShutdown_apply hc hw₁ ph
  refine ⟨log, ?_⟩
  show Act.contained (emit .shutdownBegan >>= fun _ => signalShutdown) ph w = _
  rw [contained_eq]
  show ((signalShutdown ph w₁).1.contained, (signalShutdown ph w₁).2) = _
  rw [happly]
  rfl

end Act

end ObjectBoundary
