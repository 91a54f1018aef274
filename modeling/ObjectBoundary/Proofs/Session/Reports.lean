import ObjectBoundary.Proofs.Acts.Reports
import ObjectBoundary.Proofs.Session.Degradation

/-!
# Sessions after the start of shutdown

Once shutdown has begun, whatever a step makes or destroys of wrappers and proxies is reported line
by line. Where failed checks are fatal, no step makes any.

* `heldLine`: the line of such a report.
* `Step.watched`: the act of a step reports what it does.
* `carriers_reported`: so does every step of a session.
-/

namespace ObjectBoundary.Session

open ObjectBoundary Act

variable {s : State} {x : Step} {slots : Slots} {p : Plan} {w : World}

/-! ## Steps -/

instance : IsPreorder World fun w w' => w'.store = w.store where
  refl _ := rfl
  trans _ _ _ h h' := h'.trans h

/-- The act of a step reports what it does to carriers. -/
theorem Step.watched (h : x.plan slots = .ok p) (hb : w.IsBarred) :
    w.Watched (p.act .normal w).2 := by
  cases hapart : x.isApart with
  | false => exact (Step.supervised (k := fun _ => none) h hapart).watched hb nofun
  | true =>
    cases x with
    | process step =>
      have honward := Step.onward (w := w) h .normal
      refine .of_store honward.later ?_ honward.log
      cases h
      exact respects_bind (R := fun w w' : World => w'.store = w.store)
        (step.respects_act World.Quiet.store fun _ hs _ => hs)
        (fun _ _ _ => respects_pure _) .normal
    | _ => cases hapart

/-! ## Lines -/

/-- The line that reports an object held after the start of shutdown. -/
def heldLine : String := "ERROR " ++ Failure.heldAtShutdown.message

/-- Every report has its line. -/
theorem reports_le_count (name : Id → String) (log : List Event) :
    log.count (.failed .heldAtShutdown) ≤ (log.filterMap (Event.line? name)).count heldLine := by
  rw [List.count, List.count, List.countP_filterMap]
  refine List.countP_mono_left fun e _ he => ?_
  rw [beq_iff_eq.mp he]
  exact beq_self_eq_true (some heldLine)

namespace State

/-- The carriers that a step makes. -/
def introduced (s : State) (x : Step) : Finset Id :=
  s.world.store.introduced (s.step x).2.world.store

/-- The carriers that cease to exist in a step. -/
def discarded (s : State) (x : Step) : Finset Id :=
  s.world.store.discarded (s.step x).2.world.store

/-- A step that is not carried out changes nothing, and one that is carried out reports what it does
to carriers. -/
theorem watched_step (hb : s.world.IsBarred) :
    (s.step x).2.world.store = s.world.store ∨ s.begun.Watched (s.step x).2.world ∧
      (s.step x).1.lines = (s.step x).2.world.log.filterMap
        (Event.line? (s.step x).2.world.store.nameOf) := by
  rcases s.step_world x with (hworld | hworld) | ⟨p, hp, hfree, hworld⟩
  · rw [hworld]
    exact Or.inl rfl
  · rw [hworld]
    exact Or.inl rfl
  · refine Or.inr ⟨?_, ?_⟩
    · rw [hworld]
      exact Step.watched hp hb
    · rw [step_of_plan hp hfree]
      rfl

/-- Once shutdown has begun a step reports, line by line, the carriers that it makes and those that
cease to exist. -/
theorem reported_step (hb : s.world.IsBarred) :
    (s.introduced x).card + (s.discarded x).card ≤ (s.step x).1.lines.count heldLine := by
  rcases s.watched_step (x := x) hb with hsame | ⟨hwatched, hlines⟩
  · have hturn := (Store.Preserves.refl s.world.store).turnover_eq
    unfold introduced discarded
    rw [hsame]
    omega
  · let w := (s.step x).2.world
    have hturn : (s.introduced x).card + (s.discarded x).card + s.world.store.turnover =
        w.store.turnover := hwatched.preserves.turnover_eq
    have hreported : w.store.turnover + 0 ≤ s.world.store.turnover + w.reports :=
      hwatched.reported
    have hcount : w.reports ≤ (s.step x).1.lines.count heldLine := by
      rw [hlines]
      exact reports_le_count _ _
    omega

/-- Where the check of the start of shutdown unwinds, no carrier is made any more. -/
theorem addsNone_after (hc : s.world.IsClosed) (xs : List Step) :
    s.world.store.Preserves (s.after xs).world.store ∧
      s.world.store.AddsNoCarrier (s.after xs).world.store := by
  induction xs generalizing s with
  | nil => exact ⟨.refl _, .of_size rfl⟩
  | cons x xs ih =>
    obtain ⟨hpreserves, hadds⟩ := ih ((s.later_step x).isClosed hc)
    rcases s.watched_step (x := x) hc.1 with hsame | ⟨hwatched, -⟩
    · rw [hsame] at hpreserves hadds
      exact ⟨hpreserves, hadds⟩
    · exact ⟨hwatched.preserves.trans hpreserves, (hwatched.addsNone hc.2).trans hpreserves hadds⟩

end State

/-- After the start of shutdown nothing is made or destroyed in silence: a step reports, with a line
for each, the wrappers and proxies that it makes and those that cease to exist in it, whatever it is
that makes or destroys them. Where failed checks are fatal none is made any more. -/
theorem carriers_reported (e : Environment) (c : Option Settings) (xs : List Step) (x : Step) :
    let s := (State.initial e c).after xs
    s.world.IsBarred →
      (s.introduced x).card + (s.discarded x).card ≤ (s.step x).1.lines.count heldLine ∧
        (s.world.IsFatal →
          ∀ ys, s.world.store.introduced (s.after ys).world.store = ∅) := by
  intro s hb
  refine ⟨State.reported_step hb, fun hf ys => ?_⟩
  obtain ⟨hpreserves, hadds⟩ := State.addsNone_after ⟨hb, hf⟩ ys
  exact hadds.introduced_eq hpreserves

/-- A proxy of the wrapper of an object, held when shutdown begins. -/
def heldOver : List Step :=
  [.create (.sharedObject ⟨.client 7, none⟩) "a", .shared (.wrap .client (some "a") "w"),
    .shared (.receive .client (some "w") "p"), .process .shutDown]

theorem isBarred_heldOver (fatal : Bool) :
    ((State.initial {} (some ⟨fatal, true⟩)).after heldOver).world.IsBarred := by
  cases fatal <;> exact ⟨rfl, _, rfl, rfl⟩

/-- With its last handle the proxy goes, and the wrapper with it. Where failed checks are fatal,
nothing takes their place. -/
theorem carriers_reported_cascade :
    let s (fatal : Bool) := (State.initial {} (some ⟨fatal, true⟩)).after heldOver
    let drop : Step := .handle (.drop "p")
    (s false).discarded drop = {1, 2} ∧ 2 ≤ ((s false).step drop).1.lines.count heldLine ∧
      ∀ ys, (s true).world.store.introduced ((s true).after ys).world.store = ∅ := by
  intro s drop
  have hdiscarded : (s false).discarded drop = {1, 2} := by decide
  have hcascade :=
    (carriers_reported {} (some ⟨false, true⟩) heldOver drop (isBarred_heldOver false)).1
  have hfatal := (carriers_reported {} (some ⟨true, true⟩) heldOver drop (isBarred_heldOver true)).2
  refine ⟨hdiscarded, ?_, hfatal ⟨_, rfl, rfl⟩⟩
  change _ + ((s false).discarded drop).card ≤ _ at hcascade
  rw [hdiscarded] at hcascade
  exact Nat.le_of_add_left_le hcascade

end ObjectBoundary.Session
