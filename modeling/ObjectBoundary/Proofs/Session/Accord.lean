import ObjectBoundary.Proofs.Acts.Accord
import ObjectBoundary.Proofs.Session.Undisturbed

/-!
# Two runs of a session

Plans whose acts run alongside are carried out alongside. What was logged before a step is out of
sight in it, so states that differ in nothing else give the same answers.

* `State.carryOut_alongside`: plans carried out in two states.
* `runFrom_congr`: sessions that begin in states which differ at most in the log.
-/

namespace ObjectBoundary.Session

open ObjectBoundary Act

variable {s t : State} {x : Step} {p : Plan} {R : World → World → Prop}

namespace State

/-- What carried out plans have in common that ran alongside. -/
theorem carryOut_alongside (hbegun : R s.begun t.begun) (hslots : t.slots = s.slots)
    (hact : Alongside R (p.act .normal s.begun) (p.act .normal t.begun)) :
    Alongside R ((s.carryOut p).1, (s.carryOut p).2.1) ((t.carryOut p).1, (t.carryOut p).2.1) ∧
      (t.carryOut p).2.2 = (s.carryOut p).2.2 := by
  unfold State.carryOut
  rw [hslots]
  unfold State.begun at *
  generalize p.act .normal { s.world with log := [] } = r at hact ⊢
  generalize p.act .normal { t.world with log := [] } = r' at hact ⊢
  obtain ⟨o, w⟩ := r
  obtain ⟨o', w'⟩ := r'
  obtain ⟨rfl, hworld⟩ := hact
  rcases o with ⟨value, slot⟩ | _ | _ | _
  · exact ⟨⟨rfl, hworld⟩, rfl⟩
  · exact ⟨⟨rfl, hworld⟩, rfl⟩
  · exact ⟨⟨rfl, hworld⟩, rfl⟩
  · exact ⟨⟨rfl, hbegun⟩, rfl⟩

/-- The same state with nothing logged. -/
def fresh (s : State) : State := ⟨s.begun, s.slots⟩

theorem step_fresh (s : State) (x : Step) :
    (s.fresh.step x).1 = (s.step x).1 ∧ (s.fresh.step x).2.fresh = (s.step x).2.fresh := by
  show (s.fresh.step x).1 = (s.step x).1 ∧ _
  cases hp : x.plan s.slots with
  | error misuse =>
    have hp' : x.plan s.fresh.slots = .error misuse := hp
    rw [step, step, hp, hp']
    exact ⟨rfl, rfl⟩
  | ok p =>
    have hp' : x.plan s.fresh.slots = .ok p := hp
    cases hfree : nameIsFree s.slots p with
    | false =>
      have hfree' : nameIsFree s.fresh.slots p = false := hfree
      rw [step, step, hp, hp']
      simp only [hfree, hfree', Bool.false_eq_true, if_false]
      exact ⟨trivial, rfl⟩
    | true =>
      have hfree' : nameIsFree s.fresh.slots p = true := hfree
      have hcarry : s.fresh.carryOut p = s.carryOut p := rfl
      rw [step_of_plan hp hfree, step_of_plan hp' hfree', hcarry]
      exact ⟨rfl, rfl⟩

end State

/-- Sessions answer alike from states that differ at most in the log. -/
theorem runFrom_congr (h : s.fresh = t.fresh) (xs : List Step) : runFrom s xs = runFrom t xs := by
  induction xs generalizing s t with
  | nil => rfl
  | cons x xs ih =>
    have hanswer : (s.step x).1 = (t.step x).1 := by
      rw [← (s.step_fresh x).1, h, (t.step_fresh x).1]
    have hstate : (s.step x).2.fresh = (t.step x).2.fresh := by
      rw [← (s.step_fresh x).2, h, (t.step_fresh x).2]
    simp only [runFrom, hanswer, ih hstate]

end ObjectBoundary.Session
