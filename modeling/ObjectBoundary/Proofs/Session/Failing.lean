import ObjectBoundary.Proofs.Acts.Failing
import ObjectBoundary.Proofs.Session.Degradation
import ObjectBoundary.Proofs.Session.Uses

/-!
# Steps in which a check fails

Only the first check that fails in a step can unwind. If it fails outside of function members its
failure unwinds out of the step, and inside it ends the process; the checks that fail later, in the
destructors that run meanwhile, are only reported.

* `State.FailsAt`: the first check that fails in a step, and the destructors on the way out.
* `State.EndsWith`: how the step ends.
* `fails_once`: every step in which a check fails ends in this way.
* `not_fails_once`: a process ends although no function member was called.
-/

namespace ObjectBoundary.Session

open ObjectBoundary Act

variable {s : State} {x : Step} {p : Plan} {slots : Slots} {q : Place} {e : Failure} {w : World}
  {ds : List Destructor}

namespace State

/-- The first check that fails in a step: its place and its failure, the world with its report, and
the destructors on the way out. -/
def FailsAt (s : State) (x : Step) (q : Place) (e : Failure) (w : World)
    (ds : List Destructor) : Prop :=
  ∃ p, x.plan s.slots = .ok p ∧ p.act.Breaks s.begun q e w ds

/-- How a step ends in which a check fails. It is the failure of this check that unwinds or ends the
process, whatever fails later. The destructors on the way out do to the end what they do where
failed checks are not fatal, and each check that fails is reported by one line. -/
structure EndsWith (s : State) (x : Step) (q : Place) (e : Failure) (w : World)
    (ds : List Destructor) : Prop where
  unwound : q = .outside → (s.step x).1.outcome = .unwound e
  aborted : q = .inside → (s.step x).1.outcome = .aborted (some e)
  first : failed w = [e]
  completes : ∃ w', Destructor.all ds .normal w.lenient = (.done (), w') ∧
    (s.step x).2.world.store = w'.store ∧ (s.step x).2.world.log = w'.log
  reported : ∃ later, failed (s.step x).2.world = e :: later ∧
    (s.step x).1.lines.filter isErrorLine = (e :: later).map fun f => "ERROR " ++ f.message

end State

/-- The first check that fails in a step has a place. -/
theorem Step.locates (hp : x.plan slots = .ok p) (w : World) : Locates p.act w := by
  by_cases hx : x = .process .currentSettings
  · subst hx
    cases hp
    refine (clears_bind (clears_bind clears_settings fun _ _ _ => ?_) fun _ _ _ => ?_).locates
    · exact clears_pure _
    · exact clears_pure _
  · exact (Step.composed hp hx).locates w

namespace State

/-- No destructor unwinds or ends the process, so the failure gets as far as its place allows. -/
theorem FailsAt.endsWith (h : s.FailsAt x q e w ds) (hx : s.accepts x = true) :
    s.EndsWith x q e w ds := by
  obtain ⟨p, hp, hfails⟩ := h
  obtain ⟨p', hp', hfree, -⟩ := accepts_cases hx
  cases hp.symm.trans hp'
  obtain ⟨t, ht, -⟩ := hfails.isFatal
  have happly := hfails.apply
  have hlasts := Destructor.lasts_all ds w
  have hpasses := (Destructor.composed_all ds).passesOver ht
  have hlog := ((Destructor.composed_all ds).onward w .unwinding).log
  unfold PassesOver at hpasses
  generalize Destructor.all ds .unwinding w = r at *
  rcases r with ⟨⟨⟩ | e' | c | m, w'⟩
  · have hstep : s.step x = (answerTo s.world (q.leave (.unwound e)) w',
        ⟨w', remaining s.slots p⟩) := by
      cases q with
      | outside => exact step_of_unwound hp hfree happly
      | inside => exact step_of_aborted hp hfree happly
    have hworld : (s.step x).2.world = w' := by rw [hstep]
    have hfirst : failed w = [e] := by
      rw [failed_eq, hfails.failures]
      rfl
    obtain ⟨more, hmore⟩ := hlog
    have hfailed : failed w' = e :: more.filterMap failure? := by
      rw [failed, ← hmore, List.filterMap_append]
      exact congrArg (· ++ _) hfirst
    refine ⟨?_, ?_, hfirst, ⟨w'.lenient, hpasses, ?_, ?_⟩, more.filterMap failure?, ?_, ?_⟩
    · rintro rfl
      rw [hstep]
      rfl
    · rintro rfl
      rw [hstep]
      rfl
    · rw [hworld]
      rfl
    · rw [hworld]
      rfl
    · rw [hworld, hfailed]
    · rw [filter_step hx, hworld, hfailed]
  · exact hlasts.elim
  · exact hlasts.elim
  · obtain ⟨p', hp', -, -, hnot⟩ := world_of_accepts hx
    cases hp.symm.trans hp'
    exact absurd (by rw [happly]; cases q <;> rfl) (hnot m)

/-- In a step no more than one check fails first. -/
theorem FailsAt.unique {q' : Place} {e' : Failure} {w' : World} {ds' : List Destructor}
    (h : s.FailsAt x q e w ds) (h' : s.FailsAt x q' e' w' ds') (hx : s.accepts x = true) :
    q = q' ∧ e = e' := by
  have hends := h.endsWith hx
  have hends' := h'.endsWith hx
  cases q <;> cases q'
  · cases (hends.unwound rfl).symm.trans (hends'.unwound rfl)
    exact ⟨rfl, rfl⟩
  · cases (hends.unwound rfl).symm.trans (hends'.aborted rfl)
  · cases (hends.aborted rfl).symm.trans (hends'.unwound rfl)
  · cases (hends.aborted rfl).symm.trans (hends'.aborted rfl)
    exact ⟨rfl, rfl⟩

/-- If a step reports a failed check, the first one has failed in a certain place. -/
theorem exists_failsAt (hx : s.accepts x = true) (hf : (s.step x).2.world.IsFatal)
    (herror : (s.step x).1.error? ≠ none) : ∃ q e w ds, s.FailsAt x q e w ds := by
  obtain ⟨p, hp, -, hworld, -⟩ := world_of_accepts hx
  rcases Step.locates hp s.begun (hworld ▸ hf.isStrict) with hclears | ⟨q, e, w, ds, h⟩
  · have hnone : (s.step x).1.lines.filter isErrorLine = [] := by
      rw [filter_step hx, failed_eq, hworld, hclears.failures]
      rfl
    exact absurd (List.find?_eq_none.mpr (List.filter_eq_nil_iff.mp hnone)) herror
  · exact ⟨q, e, w, ds, p, hp, h⟩

end State

/-- Where failed checks are fatal, the first one that fails in a step decides how it ends, and it
alone: outside of function members its failure unwinds out of the step, and inside it ends the
process. The destructors on the way do to the end what they do where failed checks are not fatal,
however many checks fail in them. -/
theorem fails_once (hx : s.accepts x = true) (hf : (s.step x).2.world.IsFatal) :
    ((s.step x).1.error? ≠ none → ∃ q e w ds, s.FailsAt x q e w ds) ∧
      ∀ q e w ds, s.FailsAt x q e w ds → s.EndsWith x q e w ds :=
  ⟨State.exists_failsAt hx hf, fun _ _ _ _ h => h.endsWith hx⟩

/-- The structure of a proxy is asked for after the start of shutdown, and the check of this
unwinds. With the handle the proxy goes and the wrapper behind it, and the check fails for each of
them again. -/
theorem fails_once_cascade :
    let s := (State.initial {} (some ⟨true, true⟩)).after heldOver
    let x : Step := .shared (.giveBack .client (some "p") "v")
    let w : World := { s.begun with log := [.failed .heldAtShutdown] }
    s.FailsAt x .outside .heldAtShutdown w [.handle 2] ∧
      s.EndsWith x .outside .heldAtShutdown w [.handle 2] ∧
      (s.step x).1.lines.count heldLine = 3 := by
  intro s x w
  have hrunning : Breaks requireRunning s.begun .outside .heldAtShutdown w [] := by
    refine .right (x := settings) rfl rfl (.right (x := get) rfl rfl ?_)
    exact .check (e := .heldAtShutdown) rfl
  have hfails : s.FailsAt x .outside .heldAtShutdown w [.handle 2] :=
    ⟨_, rfl, .left (.left (.unwinding (.handle 2) hrunning))⟩
  exact ⟨hfails, (fails_once rfl ⟨_, rfl, rfl⟩).2 _ _ _ _ hfails, by decide⟩

/-- A computation that nothing may unwind out of ends the process as well, although it is no
function member. -/
theorem not_fails_once :
    ¬ ∀ s out (x : ProcessStep) e, Reachable State.Proceeds s out → s.world.IsFatal →
      x ≠ .shutDown → (s.step (.process x)).1.outcome ≠ .aborted (some e) := by
  intro h
  exact h (.initial {} (some ⟨true, true⟩)) _ (.compute 5 (some "x")) (.stated "x") (.initial _ _)
    ⟨_, rfl, rfl⟩ nofun rfl

end ObjectBoundary.Session
