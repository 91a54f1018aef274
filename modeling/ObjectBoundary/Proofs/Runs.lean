import ObjectBoundary.Proofs.Ends

/-!
# Acts that are done unless they are refused

An act may use an entity that has ceased to exist, and is refused then. Of an act that nothing
else keeps from being done it can be said which obstacle it was refused for.

* `Act.Runs`: the act is done, or there is an obstacle and it is refused.
* `runs_bind` and its like: how such acts are composed.
-/

namespace ObjectBoundary.Act

variable {α β : Type} {x : Act α} {w : World} {stuck stuck' : Prop}

/-- Whatever the phase, the act is done, or there is an obstacle and the act is refused. -/
def Runs (x : Act α) (w : World) (stuck : Prop) : Prop :=
  ∀ phase, (∃ a w', x phase w = (.done a, w')) ∨ stuck ∧ ∃ m w', x phase w = (.refused m, w')

theorem Does.runs (h : Does x w) : Runs x w stuck := fun phase => Or.inl (h phase)

/-- Without the obstacle the act is done. -/
theorem Runs.does (h : Runs x w stuck) (hnot : ¬ stuck) : Does x w := fun phase =>
  (h phase).elim id fun hrefused => absurd hrefused.1 hnot

theorem runs_mono (h : Runs x w stuck) (himp : stuck → stuck') : Runs x w stuck' := fun phase =>
  (h phase).imp_right fun hrefused => ⟨himp hrefused.1, hrefused.2⟩

/-! ## Composition -/

theorem runs_pure (a : α) (w : World) : Runs (pure a) w stuck := (does_pure a w).runs

theorem runs_refuse (m : Misuse) (h : stuck) : Runs (refuse m : Act α) w stuck :=
  fun _ => Or.inr ⟨h, m, w, rfl⟩

theorem runs_bind {f : α → Act β} {P : α → World → Prop} {U : Failure → World → Prop}
    (hx : Runs x w stuck) (hp : Ends x w P U) (hf : ∀ a w', P a w' → Runs (f a) w' stuck) :
    Runs (x >>= f) w stuck := by
  intro phase
  rw [bind_apply]
  rcases hx phase with ⟨a, w', ha⟩ | ⟨hstuck, m, w', hm⟩
  · rw [ha]
    exact hf a w' (ends_of_done hp ha) phase
  · rw [hm]
    exact Or.inr ⟨hstuck, m, w', rfl⟩

theorem runs_discard (hx : Runs x w stuck) : Runs (discard x) w stuck :=
  runs_bind hx ends_true fun _ _ _ => runs_pure _ _

/-- An entity that does not exist is in the way of an act that uses it. -/
theorem runs_entity_bind {y : Id} {f : Entity → Act β}
    (hgone : (∀ n, w.store.get? y = some n → n.live = false) → stuck)
    (hf : ∀ n, w.store.get? y = some n → n.live = true → Runs (f n.entity) w stuck) :
    Runs (entity y >>= f) w stuck := by
  intro phase
  cases hn : w.store.get? y with
  | none =>
    have hstuck := hgone fun n hn' => nomatch hn.symm.trans hn'
    simp only [entity, bind_apply, get, hn]
    exact Or.inr ⟨hstuck, _, _, rfl⟩
  | some n =>
    cases hlive : n.live with
    | false =>
      have hstuck := hgone fun m hm => by cases hn.symm.trans hm; exact hlive
      simp only [entity, bind_apply, get, hn, hlive]
      exact Or.inr ⟨hstuck, _, _, rfl⟩
    | true =>
      have := hf n hn hlive phase
      simp only [entity, bind_apply, get, hn, hlive]
      exact this

theorem runs_contained (hx : Runs x w stuck) : Runs (contained x) w stuck := by
  intro phase
  unfold contained
  rcases hx phase with ⟨a, w', ha⟩ | ⟨hstuck, m, w', hm⟩
  · rw [ha]
    exact Or.inl ⟨a, w', rfl⟩
  · rw [hm]
    exact Or.inr ⟨hstuck, m, w', rfl⟩

/-- Where an act does not unwind there is nothing to clean up. -/
theorem runs_onUnwind (c : Act Unit) (hx : Runs x w stuck) : Runs (onUnwind x c) w stuck := by
  intro phase
  unfold onUnwind
  rcases hx phase with ⟨a, w', ha⟩ | ⟨hstuck, m, w', hm⟩
  · rw [ha]
    exact Or.inl ⟨a, w', rfl⟩
  · rw [hm]
    exact Or.inr ⟨hstuck, m, w', rfl⟩

theorem runs_through {s : Id} {position : Nat} {absent : α} {n : Node} {t : Structure}
    (hn : w.store.get? s = some n) (ht : n.entity.struct? = some t)
    (hgone : n.live = false → stuck) (hx : Runs x w stuck) :
    Runs (through s position absent x) w stuck := by
  unfold through struct
  rw [bind_assoc]
  refine runs_entity_bind (fun h => hgone (h n hn)) fun m hm _ => ?_
  cases hn.symm.trans hm
  rw [ht]
  show Runs (if t.isSet position = true then contained x else pure absent) w stuck
  split
  · exact runs_contained hx
  · exact runs_pure _ _

end ObjectBoundary.Act
