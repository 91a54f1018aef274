import ObjectBoundary.Proofs.Acts.Composed

/-!
# Counts beyond the limit

Where failed checks are not fatal, nothing unwinds and no function member ends the process. What is
left to end it is a reference that is taken beyond the limit of a count.

* `check_apply`: a failed check is reported once, whatever becomes of it.
* `World.Exhausted`: a count has risen beyond the limit.
* `Composed.exhausted`: nothing else ends a process in which failed checks are not fatal.
-/

namespace ObjectBoundary

variable {α β : Type}

/-- The last thing that has happened is that a count rose which was beyond the limit already. -/
def World.Exhausted (w : World) : Prop :=
  ∃ x n c, w.log.getLast? = some (.raised x) ∧ w.store.get? x = some n ∧ n.live = true ∧
    n.entity.count? = some (Count.succ c) ∧ c.isFull = true

namespace Act

variable {w w' : World} {phase : Phase} {failure : Option Failure}

/-- A failed check is reported once, whatever becomes of it, and nothing else happens. -/
theorem check_apply (f : Failure) (phase : Phase) (w : World) :
    ∃ w', w.Quiet w' ∧ w'.failures = w.failures ++ [.failed f] ∧
      check f phase w = (if w.inForce.fatalChecks then unwind f else pure ()) phase w' := by
  have hemit := quiet_emit (e := .failed f) (fun _ => rfl) (fun _ => nofun) w
  obtain ⟨w', happly, hconsults⟩ := settings_apply phase { w with log := w.log ++ [.failed f] }
  refine ⟨w', trans_of World.Quiet hemit hconsults.quiet, ?_, ?_⟩
  · rw [hconsults.failures]
    simp [World.failures, Event.isFailure]
  · show (settings >>= fun s => if s.fatalChecks then unwind f else pure ()) phase _ = _
    rw [bind_apply, happly]
    rfl

theorem check_ne_aborted (f : Failure) (phase : Phase) (w : World) (failure : Option Failure) :
    (check f phase w).1 ≠ .aborted failure := by
  obtain ⟨w', -, -, happly⟩ := check_apply f phase w
  rw [happly]
  split
  · cases phase <;> nofun
  · nofun

/-- A look at an entity either finds it or is refused. -/
theorem entity_bind_aborted {x : Id} {f : Entity → Act β}
    (h : (entity x >>= f) phase w = (.aborted failure, w')) :
    ∃ n, w.store.get? x = some n ∧ n.live = true ∧ f n.entity phase w = (.aborted failure, w') := by
  cases hn : w.store.get? x with
  | none =>
    simp only [entity, bind_apply, get, hn] at h
    cases h
  | some n =>
    cases hlive : n.live with
    | false =>
      simp only [entity, bind_apply, get, hn, hlive] at h
      cases h
    | true =>
      simp only [bind_apply, entity_apply hn hlive] at h
      exact ⟨n, rfl, hlive, h⟩

theorem raise_aborted {x : Id} (h : raise x phase w = (.aborted failure, w')) :
    failure = none ∧ w'.Exhausted := by
  obtain ⟨n, hn, hlive, h⟩ := entity_bind_aborted h
  cases hc : n.entity.count? with
  | none =>
    rw [hc] at h
    cases h
  | some c =>
    rw [hc, ofOption_some_bind] at h
    cases hfull : c.isFull with
    | false =>
      rw [hfull] at h
      cases h
    | true =>
      rw [hfull] at h
      cases h
      refine ⟨rfl, x, { n with entity := n.entity.withCount c.succ }, c, ?_, ?_, hlive, ?_, hfull⟩
      · exact List.getLast?_concat
      · show (w.store.modify x _).get? x = _
        rw [Store.get?_modify, if_pos rfl, hn]
        rfl
      · rw [Entity.count?_withCount, hc]
        rfl

/-- Where failed checks are not fatal, a composed act ends the process only when a count rises
beyond the limit. -/
theorem Composed.exhausted {x : Act α} (h : Composed x)
    (hx : x phase w = (.aborted failure, w')) (hf : ¬ w'.IsFatal) :
    failure = none ∧ w'.Exhausted := by
  induction h generalizing w w' phase with
  | raise x => exact raise_aborted hx
  | bind _ _ ihx ihf =>
    rw [bind_apply] at hx
    split at hx
    · exact ihf _ hx hf
    · cases hx
    · rename_i hfirst
      cases hx
      exact ihx hfirst hf
    · cases hx
  | @contained α x hx' ih =>
    rw [Act.contained] at hx
    split at hx
    · rename_i hfirst
      cases hx
      exact absurd (ends_of_unwound (hx'.ends_fatal w) hfirst) hf
    · exact ih hx hf
  | @onUnwind α x d hx' hd ihx _ =>
    rw [Act.onUnwind] at hx
    split at hx
    · rename_i e w₁ hfirst
      have hfatal : w₁.IsFatal := ends_of_unwound (hx'.ends_fatal w) hfirst
      have hclean : Respects World.Onward (cleanUp e d.act : Act α) w₁ :=
        respects_cleanUp e (hd.onward w₁)
      have honward := hclean phase
      rw [hx] at honward
      exact absurd (honward.later.isFatal hfatal) hf
    · exact ihx hx hf
  | check f => exact absurd (congrArg Prod.fst hx) (check_ne_aborted f phase w failure)
  | consult =>
    obtain ⟨w₁, happly, -⟩ := settings_apply phase w
    rw [bind_apply, happly] at hx
    cases hx
  | install s =>
    change (if w.settings.isSome then _ else _ : Act _) phase w = _ at hx
    split at hx <;> cases hx
  | change x f =>
    obtain ⟨n, -, -, hx⟩ := entity_bind_aborted hx
    cases ht : n.entity.struct? with
    | none =>
      rw [ht] at hx
      cases hx
    | some t =>
      rw [ht] at hx
      cases hx
  | vacate x v _ ih => exact ih hx hf
  | _ => cases hx

end Act

end ObjectBoundary
