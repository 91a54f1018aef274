import ObjectBoundary.Proofs.Acts.Inert
import ObjectBoundary.Proofs.Session.Accord
import ObjectBoundary.Proofs.Session.Reports

/-!
# Sessions that were not told of the start of shutdown

Unless failed checks are fatal and the start of shutdown is checked for, it makes no difference to a
session that shutdown begins, other than reports of it and the answer to the question whether it has
begun. The session without the steps that signal it goes the same way.

* `Answer.Matches`: an answer, beside the one of a session that was not told.
* `State.Untold.step`: states told and untold answer alike.
* `shutdown_inert`: so do whole sessions.
-/

namespace ObjectBoundary

/-! ## Lines with and without reports -/

namespace Thinned

variable {c : Settings} {l l' : List Event}

theorem sublist_lines (h : Thinned c l l') (name : Id → String) :
    (l'.filterMap (Event.line? name)).Sublist (l.filterMap (Event.line? name)) := by
  induction h with
  | nil => exact .slnil
  | both e _ ih =>
    rw [List.filterMap_append, List.filterMap_append]
    exact ih.append (List.Sublist.refl _)
  | report _ _ ih =>
    rw [List.filterMap_append]
    exact ih.trans (List.sublist_append_left _ _)

/-- All other lines stay. -/
theorem filter_lines (h : Thinned c l l') (name : Id → String) :
    (l.filterMap (Event.line? name)).filter (· ≠ Session.heldLine) =
      (l'.filterMap (Event.line? name)).filter (· ≠ Session.heldLine) := by
  induction h with
  | nil => rfl
  | both e _ ih =>
    rw [List.filterMap_append, List.filterMap_append, List.filter_append, List.filter_append, ih]
  | report _ _ ih =>
    rw [List.filterMap_append, List.filter_append, ih]
    simp [Event.line?, Session.heldLine]

theorem eq_of_unchecked (h : Thinned c l l') (hs : c.shutdownChecks = false) : l = l' := by
  induction h with
  | nil => rfl
  | both e _ ih => rw [ih]
  | report hc _ _ =>
    rw [hs] at hc
    cases hc

end Thinned

namespace Session

open Act

variable {c : Settings} {s t : State} {x : Step} {p : Plan}

/-! ## Answers -/

/-- The answer of a step, beside the one that it gives where shutdown was never signalled: the same,
but for additional reports and for what is told about the start of shutdown. Where that is not
checked for, there is no difference at all. -/
structure Answer.Matches (c : Settings) (x : Step) (a b : Answer) : Prop where
  outcome : x = .process .hasShutDown ∨ a.outcome = b.outcome
  states : a.states = b.states
  additional : b.lines.Sublist a.lines
  reports : a.lines.filter (· ≠ heldLine) = b.lines.filter (· ≠ heldLine)
  same : c.shutdownChecks = false → a = b

theorem Answer.Matches.refl (c : Settings) (x : Step) (a : Answer) : a.Matches c x a :=
  ⟨Or.inr rfl, rfl, .refl _, rfl, fun _ => rfl⟩

/-! ## States told and untold -/

namespace State

/-- States with the same slots whose steps begin in a world told of the start of shutdown and in an
untold one. -/
structure Untold (c : Settings) (s t : State) : Prop where
  begun : s.begun.Untold c t.begun
  slots : t.slots = s.slots

theorem untold_of_world (h : s.world.Untold c t.world) (hslots : t.slots = s.slots) :
    s.Untold c t := by
  refine ⟨?_, hslots⟩
  unfold State.begun
  generalize s.world = w at h
  generalize t.world = w' at h
  cases h with
  | intro e st hd _ => exact .intro e st hd .nil

theorem untold_initial (e : Environment) (c : Settings) :
    (State.initial e (some c)).Untold c (State.initial e (some c)) :=
  untold_of_world (.intro e _ nofun .nil) rfl

/-- Answers to what ran alongside. -/
theorem Untold.matches_answerTo (h : s.Untold c t) {o : Outcome Value} {w w' : World}
    (hw : w.Untold c w') :
    (answerTo s.world o w).Matches c x (answerTo t.world o w') := by
  have hbefore : t.world.store = s.world.store := h.begun.store
  have hafter := hw.store
  refine ⟨Or.inr rfl, ?_, ?_, ?_, fun hs => ?_⟩
  · simp only [answerTo, hbefore, hafter]
  · simp only [answerTo, hafter]
    exact hw.log.sublist_lines _
  · simp only [answerTo, hafter]
    exact hw.log.filter_lines _
  · simp only [answerTo, hbefore, hafter, hw.log.eq_of_unchecked hs]

/-- A step whose act runs alongside answers alike. -/
theorem Untold.step_of_alongside (h : s.Untold c t) (hp : x.plan s.slots = .ok p)
    (hfree : nameIsFree s.slots p = true)
    (hact : Alongside (World.Untold c) (p.act .normal s.begun) (p.act .normal t.begun)) :
    (s.step x).1.Matches c x (t.step x).1 ∧ (s.step x).1.goesOn = (t.step x).1.goesOn ∧
      (s.step x).2.Untold c (t.step x).2 := by
  rw [step_of_plan hp hfree, step_of_plan (h.slots.symm ▸ hp) (h.slots.symm ▸ hfree)]
  obtain ⟨hcarry, hslots⟩ := carryOut_alongside h.begun h.slots hact
  generalize s.carryOut p = r at hcarry hslots ⊢
  generalize t.carryOut p = r' at hcarry hslots ⊢
  obtain ⟨o, w, slots⟩ := r
  obtain ⟨o', w', slots'⟩ := r'
  obtain ⟨ho, hworld⟩ := hcarry
  change o = o' at ho
  subst ho
  exact ⟨h.matches_answerTo hworld, rfl, untold_of_world hworld hslots⟩

/-- Only who asks whether shutdown has begun may be told otherwise. -/
theorem Untold.hasShutDown (h : s.Untold c t) :
    let x : Step := .process .hasShutDown
    (s.step x).1.Matches c x (t.step x).1 ∧ (s.step x).1.goesOn = (t.step x).1.goesOn ∧
      (s.step x).2.Untold c (t.step x).2 := by
  intro x
  let p : Plan := .answering (ProcessStep.act .hasShutDown)
  have answered (s : State) : s.step x =
      (answerTo s.world (.done (.flag s.world.isShutdown)) s.begun, ⟨s.begun, s.slots⟩) :=
    step_of_done (p := p) rfl rfl rfl
  rw [answered s, answered t]
  have hmatches : (answerTo s.world (.done (.flag s.world.isShutdown)) s.begun).Matches c x
      (answerTo t.world (.done (.flag s.world.isShutdown)) t.begun) := h.matches_answerTo h.begun
  refine ⟨⟨Or.inl rfl, hmatches.states, hmatches.additional, hmatches.reports, fun hs => ?_⟩, rfl,
    untold_of_world h.begun h.slots⟩
  have hsame : s.world.isShutdown = t.world.isShutdown := h.begun.isShutdown_eq hs
  rw [← hsame]
  exact hmatches.same hs

/-- A step that signals nothing answers alike. -/
theorem Untold.step (h : s.Untold c t) (hc : c.fatalChecks = true → c.shutdownChecks = false)
    (hx : x.signals = false) :
    (s.step x).1.Matches c x (t.step x).1 ∧ (s.step x).1.goesOn = (t.step x).1.goesOn ∧
      (s.step x).2.Untold c (t.step x).2 := by
  cases hp : x.plan s.slots with
  | error misuse =>
    rw [State.step, State.step, h.slots, hp]
    exact ⟨.refl _ _ _, rfl, h⟩
  | ok p =>
    cases hfree : nameIsFree s.slots p with
    | false =>
      rw [State.step, State.step, h.slots, hp]
      simp only [hfree, Bool.false_eq_true, if_false]
      exact ⟨.refl _ _ _, trivial, h⟩
    | true =>
      cases hapart : x.isApart with
      | false =>
        refine h.step_of_alongside hp hfree ?_
        exact (Step.supervised (k := fun _ => none) hp hapart).inert hc h.begun
      | true =>
        cases x with
        | process step =>
          cases step with
          | hasShutDown => exact h.hasShutDown
          | currentSettings =>
            refine h.step_of_alongside hp hfree ?_
            cases hp
            refine alongside_bind (alongside_bind (alongside_settings h.begun) ?_) ?_ <;>
              exact fun _ _ _ hw => ⟨rfl, hw⟩
          | install d =>
            refine h.step_of_alongside hp hfree ?_
            cases hp
            refine alongside_bind (alongside_bind (alongside_install h.begun _) ?_) ?_
            · exact fun r _ _ hw => by rcases r with e | ⟨⟩ <;> exact ⟨rfl, hw⟩
            · exact fun _ _ _ hw => ⟨rfl, hw⟩
          | shutDown | signalShutdown => cases hx
          | _ => cases hapart
        | _ => cases hapart

/-- A step that signals the start of shutdown is done, and what it does is out of sight. -/
theorem Untold.signal (h : s.Untold c t) (hc : c.fatalChecks = true → c.shutdownChecks = false)
    (hx : x.signals = true) :
    (s.step x).1.goesOn = true ∧ (s.step x).2.Untold c t := by
  have signalled {step : ProcessStep} {act : Act Unit} (hstep : step.act = silently act)
      (hact : ∃ log, act .normal s.begun = (.done (),
        { s.begun with isShutdown := s.begun.isShutdown || c.shutdownChecks, log := log })) :
      (s.step (.process step)).1.goesOn = true ∧ (s.step (.process step)).2.Untold c t := by
    obtain ⟨log, hact⟩ := hact
    let p : Plan := .answering step.act
    let w : World :=
      { s.begun with isShutdown := s.begun.isShutdown || c.shutdownChecks, log := log }
    have hdone : p.act .normal s.begun = (.done (.null, .null), w) := by
      show (step.act >>= fun value => pure (value, Slot.null)) .normal s.begun = _
      rw [hstep, silently, bind_assoc, bind_apply, hact]
      rfl
    rw [step_of_done (p := p) rfl rfl hdone]
    exact ⟨rfl, h.begun.signalled, h.slots⟩
  cases x with
  | process step =>
    cases step with
    | shutDown => exact signalled rfl (shutDown_apply hc h.begun.settings .normal)
    | signalShutdown => exact signalled rfl (signalShutdown_apply hc h.begun.settings .normal)
    | _ => cases hx
  | _ => cases hx

end State

/-! ## Sessions -/

/-- The steps of a session that signal nothing, each with its answer. -/
def unsignalled (s : State) (xs : List Step) : List (Step × Answer) :=
  (xs.zip (runFrom s xs)).filter fun q => !q.1.signals

/-- From states told and untold, sessions go the same way. -/
theorem State.Untold.run (h : s.Untold c t) (hc : c.fatalChecks = true → c.shutdownChecks = false)
    (xs : List Step) :
    List.Forall₂ (fun q r => q.1 = r.1 ∧ q.2.Matches c q.1 r.2) (unsignalled s xs)
      ((xs.filter fun x => !x.signals).zip (runFrom t (xs.filter fun x => !x.signals))) := by
  induction xs generalizing s t with
  | nil => exact .nil
  | cons x xs ih =>
    cases hx : x.signals with
    | true =>
      obtain ⟨hgoes, huntold⟩ := h.signal hc hx
      have hrest := ih huntold
      simp only [unsignalled, runFrom, hgoes, if_true, List.zip_cons_cons, hx, Bool.not_true,
        Bool.false_eq_true, not_false_eq_true, List.filter_cons_of_neg]
      exact hrest
    | false =>
      obtain ⟨hmatches, hgoes, huntold⟩ := h.step hc hx
      simp only [unsignalled, runFrom, List.zip_cons_cons, hx, Bool.not_false,
        List.filter_cons_of_pos]
      refine .cons ⟨rfl, hmatches⟩ ?_
      rw [← hgoes]
      cases (s.step x).1.goesOn with
      | true => exact ih huntold
      | false =>
        simp only [Bool.false_eq_true, if_false, List.zip_nil_right, List.filter_nil]
        exact .nil

/-- Unless failed checks are fatal and the start of shutdown is checked for, the steps that signal
the start of shutdown can be left out of a session, wherever they stand: all other steps answer as
they do, and only reports of the start of shutdown are missing. -/
theorem shutdown_inert (e : Environment) (c : Settings)
    (hc : ¬ (c.fatalChecks = true ∧ c.shutdownChecks = true)) (xs : List Step) :
    let silent := xs.filter fun x => !x.signals
    List.Forall₂ (fun q r => q.1 = r.1 ∧ q.2.Matches c q.1 r.2)
      ((xs.zip (run e (some c) xs)).filter fun q => !q.1.signals)
      (silent.zip (run e (some c) silent)) := by
  intro silent
  refine (State.untold_initial e c).run (fun hf => ?_) xs
  rw [← Bool.not_eq_true]
  exact fun hs => hc ⟨hf, hs⟩

/-- A proxy and the wrapper below it go after the start of shutdown, which is reported for each, as
they go without it. -/
theorem shutdown_inert_cascade :
    let c : Settings := ⟨false, true⟩
    let xs := heldOver ++ [.handle (.drop "p")]
    let silent := xs.filter fun x => !x.signals
    let told := run {} (some c) xs
    let untold := run {} (some c) silent
    List.Forall₂ (fun q r => q.1 = r.1 ∧ q.2.Matches c q.1 r.2)
        ((xs.zip told).filter fun q => !q.1.signals) (silent.zip untold) ∧
      told.length = 5 ∧ untold.length = 4 ∧
      (told.flatMap Answer.lines).count heldLine = 2 ∧
      (untold.flatMap Answer.lines).count heldLine = 0 := by
  intro c xs silent told untold
  exact ⟨shutdown_inert {} c (by decide) xs, by decide, by decide, by decide, by decide⟩

end Session

end ObjectBoundary
