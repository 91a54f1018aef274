import ObjectBoundary.Proofs.Acts.Composed

/-!
# Fatal and other failed checks

Two worlds are *twins* if they differ at most in whether failed checks are fatal. An act that is
carried out in both leads to twins again, with the same outcome and the same events, as long as no
check fails. The first check that fails is the same in both.

* `World.Twins`: worlds that differ at most in whether failed checks are fatal.
* `Concurs`: two runs stay together, or they part at the same failed check.
* `Composed.concurs`: so do the runs of every composed act.
-/

namespace ObjectBoundary

variable {α β : Type}

/-- Worlds with settings in force that differ at most in whether failed checks are fatal. -/
inductive World.Twins : World → World → Prop
  | intro (e : Environment) (shutdownChecks fatal fatal' isShutdown : Bool) (st : Store)
    (log : List Event) :
    World.Twins ⟨e, some ⟨fatal, shutdownChecks⟩, isShutdown, st, log⟩
      ⟨e, some ⟨fatal', shutdownChecks⟩, isShutdown, st, log⟩

namespace World.Twins

variable {w w' : World}

theorem store (h : w.Twins w') : w'.store = w.store := by cases h; rfl

theorem log (h : w.Twins w') : w'.log = w.log := by cases h; rfl

/-- Worlds stay twins if an entity is changed in both. -/
theorem modify (h : w.Twins w') (x : Id) (f : Node → Node) :
    World.Twins { w with store := w.store.modify x f }
      { w' with store := w'.store.modify x f } := by
  cases h
  exact .intro ..

end World.Twins

/-! ## Outcomes -/

namespace Outcome

/-- The outcome of a function member, given that of the act that it runs. -/
def contained : Outcome α → Outcome α
  | .unwound failure => .aborted (some failure)
  | o => o

/-- The outcome of cleaning up while a failure unwinds, given that of the clean-up. -/
def cleanedUp (failure : Failure) : Outcome Unit → Outcome α
  | .done _ => .unwound failure
  | .unwound _ | .aborted _ => .aborted (some failure)
  | .refused misuse => .refused misuse

end Outcome

/-! ## Two runs of an act -/

/-- None of the events is a failed check. -/
def Clean (m : List Event) : Prop := ∀ e ∈ m, e.isFailure = false

theorem clean_nil : Clean [] := fun _ h => nomatch h

theorem Clean.append {m m' : List Event} (h : Clean m) (h' : Clean m') : Clean (m ++ m') := by
  intro e he
  exact (List.mem_append.mp he).elim (h e) (h' e)

/-- Two runs that began with the same log have stayed together without a failed check, or the
first check that failed was the same in both. -/
inductive Concurs (l : List Event) : Outcome α × World → Outcome α × World → Prop
  | together {o : Outcome α} {w w' : World} (m : List Event) :
    w.Twins w' → Clean m → w.log = l ++ m → Concurs l (o, w) (o, w')
  | apart {r r' : Outcome α × World} (m : List Event) (failure : Failure) :
    Clean m → l ++ m ++ [.failed failure] <+: r.2.log →
      l ++ m ++ [.failed failure] <+: r'.2.log → Concurs l r r'

namespace Concurs

variable {l m : List Event} {r r' : Outcome α × World}

/-- What happened before without a failed check belongs to the runs as well. -/
theorem after (h : Concurs (l ++ m) r r') (hm : Clean m) : Concurs l r r' := by
  cases h with
  | together m' htwins hm' hlog =>
    exact .together (m ++ m') htwins (hm.append hm') (hlog.trans (List.append_assoc ..))
  | apart m' failure hm' hr hr' =>
    rw [List.append_assoc l] at hr hr'
    exact .apart (m ++ m') failure (hm.append hm') hr hr'

theorem map (h : Concurs l r r') (g : Outcome α → Outcome β) :
    Concurs l (g r.1, r.2) (g r'.1, r'.2) := by
  cases h with
  | together m htwins hm hlog => exact .together m htwins hm hlog
  | apart m failure hm hr hr' => exact .apart m failure hm hr hr'

end Concurs

namespace Act

variable {x : Act α} {w w' : World}

/-! ## Simple acts -/

/-- Twins with no further event. -/
theorem concurs_of_twins {w₁ w₁' : World} (h : w₁.Twins w₁') (hlog : w₁.log = w.log)
    {o : Outcome α} :
    Concurs w.log (o, w₁) (o, w₁') :=
  .together [] h clean_nil (hlog.trans (List.append_nil _).symm)

/-- Twins have the same entities at hand. -/
theorem concurs_entity_bind {x : Id} {f : Entity → Act β} {phase : Phase} (h : w.Twins w')
    (hf : ∀ e, Concurs w.log (f e phase w) (f e phase w')) :
    Concurs w.log ((entity x >>= f) phase w) ((entity x >>= f) phase w') := by
  have hget : w'.store.get? x = w.store.get? x := by rw [h.store]
  cases hn : w.store.get? x with
  | none =>
    simp only [entity, bind_apply, get, hget, hn]
    exact concurs_of_twins h rfl
  | some n =>
    cases hlive : n.live with
    | false =>
      simp only [entity, bind_apply, get, hget, hn, hlive]
      exact concurs_of_twins h rfl
    | true =>
      simp only [bind_apply, entity_apply hn hlive, entity_apply (hget.trans hn) hlive]
      exact hf n.entity

theorem concurs_change (h : w.Twins w') (x : Id) (f : Structure → Structure) (phase : Phase) :
    let change : Act Unit := entity x >>= fun e => ofOption .wrongKind e.struct? >>= fun t =>
      put x (e.withStruct (f t))
    Concurs w.log (change phase w) (change phase w') := by
  refine concurs_entity_bind h fun e => ?_
  cases e.struct? with
  | none => exact concurs_of_twins h rfl
  | some t => exact concurs_of_twins (h.modify x _) rfl

theorem concurs_raise (h : w.Twins w') (x : Id) (phase : Phase) :
    Concurs w.log (raise x phase w) (raise x phase w') := by
  refine concurs_entity_bind h fun e => ?_
  cases e.count? with
  | none => exact concurs_of_twins h rfl
  | some c =>
    have hclean : Clean [.raised x] := by
      intro e he
      rw [List.mem_singleton.mp he]
      rfl
    cases h
    cases hfull : c.isFull <;> simp only [ofOption, pure_bind, hfull] <;>
      exact .together _ (.intro ..) hclean rfl

/-- The runs part at a failed check, whatever becomes of them. -/
theorem concurs_check (h : w.Twins w') (failure : Failure) (phase : Phase) :
    Concurs w.log (check failure phase w) (check failure phase w') := by
  have hbegins {v : World} (hv : v.settings.isSome = true) (hsame : v.log = w.log) :
      w.log ++ [] ++ [.failed failure] <+: (check failure phase v).2.log := by
    obtain ⟨s, hs⟩ := Option.isSome_iff_exists.mp hv
    have hlog : (check failure phase v).2.log = v.log ++ [.failed failure] := by
      simp only [check, bind_apply, emit, modify, settings_apply_of_some
        (w := { v with log := v.log ++ [.failed failure] }) hs]
      split
      · cases phase <;> rfl
      · rfl
    exact ⟨[], by rw [hlog, hsame, List.append_nil, List.append_nil]⟩
  cases h
  exact .apart [] failure clean_nil (hbegins rfl rfl) (hbegins rfl rfl)

/-! ## Composed acts -/

theorem contained_eq (x : Act α) (phase : Phase) (w : World) :
    contained x phase w = ((x phase w).1.contained, (x phase w).2) := by
  unfold contained
  rcases x phase w with ⟨_ | _ | _ | _, w₁⟩ <;> rfl

theorem cleanUp_eq (failure : Failure) (c : Act Unit) (phase : Phase) (w : World) :
    (cleanUp failure c : Act α) phase w =
      ((c .unwinding w).1.cleanedUp failure, (c .unwinding w).2) := by
  unfold cleanUp
  rcases c .unwinding w with ⟨_ | _ | _ | _, w₁⟩ <;> rfl

/-- Runs of a composed act from twin worlds stay together until a check fails, which is the same
in both. -/
theorem Composed.concurs (h : Composed x) (hw : w.Twins w') (phase : Phase) :
    Concurs w.log (x phase w) (x phase w') := by
  induction h generalizing w w' phase with
  | pure a => exact concurs_of_twins hw rfl
  | @bind α β x f _ hf ihx ihf =>
    have hx := ihx hw phase
    have hl := (onward_bind (x := x) (fun a => (hf a).onward) phase w).log
    have hl' := (onward_bind (x := x) (fun a => (hf a).onward) phase w').log
    rw [bind_apply, bind_apply] at *
    generalize x phase w = r at hx hl ⊢
    generalize x phase w' = r' at hx hl' ⊢
    cases hx with
    | @together o w₁ w₁' m htwins hm hw₁ =>
      cases o with
      | done a => exact (hw₁ ▸ ihf a htwins phase).after hm
      | _ => exact .together m htwins hm hw₁
    | apart m failure hm hr hr' => exact .apart m failure hm (hr.trans hl) (hr'.trans hl')
  | refuse m => exact concurs_of_twins hw rfl
  | raise x => exact concurs_raise hw x phase
  | look view => cases hw; exact concurs_of_twins (.intro ..) rfl
  | consult => cases hw; exact concurs_of_twins (.intro ..) rfl
  | install s => cases hw; exact concurs_of_twins (.intro ..) rfl
  | emit he =>
    cases hw
    refine .together [_] (.intro ..) (fun d hd => ?_) rfl
    cases List.mem_singleton.mp hd
    exact (Event.isComplaint_eq_false.mp he).1
  | check failure => exact concurs_check hw failure phase
  | shut =>
    cases hw
    apply concurs_of_twins
    · exact .intro ..
    · rfl
  | put x _ => exact concurs_of_twins (hw.modify x _) rfl
  | retire x => exact concurs_of_twins (hw.modify x _) rfl
  | create name _ =>
    cases hw
    apply concurs_of_twins
    · exact .intro ..
    · rfl
  | change x f => exact concurs_change hw x f phase
  | vacate x v _ ih => exact ih (hw.modify x _) phase
  | contained _ ih =>
    rw [contained_eq, contained_eq]
    exact (ih hw phase).map _
  | @onUnwind α x d _ hd ihx ihd =>
    have hx := ihx hw phase
    have hl := (onward_onUnwind (x := x) hd phase w).log
    have hl' := (onward_onUnwind (x := x) hd phase w').log
    unfold Act.onUnwind at *
    generalize x phase w = r at hx hl ⊢
    generalize x phase w' = r' at hx hl' ⊢
    cases hx with
    | @together o w₁ w₁' m htwins hm hw₁ =>
      cases o with
      | unwound failure =>
        dsimp only
        rw [cleanUp_eq, cleanUp_eq]
        have hclean : Concurs (w.log ++ m) (d.act .unwinding w₁) (d.act .unwinding w₁') :=
          hw₁ ▸ ihd htwins .unwinding
        exact (hclean.map _).after hm
      | _ => exact .together m htwins hm hw₁
    | apart m failure hm hr hr' => exact .apart m failure hm (hr.trans hl) (hr'.trans hl')

end Act

end ObjectBoundary
