import ObjectBoundary.Proofs.Acts.Retreat
import ObjectBoundary.Proofs.Session.Balance

/-!
# Steps that unwind

A step that unwinds gives up the reference in the slot that it uses up, and no other reference to
an object. The exception is a reference to a wrapper that holds the last one to a proxy.

* `State.Severs`: the exception.
* `Plan.Retreats`: what a plan gives up if it unwinds.
* `Step.retreats`: no step but the exception gives up more.
-/

namespace ObjectBoundary.Session

open ObjectBoundary Act

variable {slots : Slots} {w : World} {p : Plan} {c : Option String}

/-- A reference to a wrapper is given up with the last one to the proxy in it, where the check of
the start of shutdown unwinds. -/
def State.Severs (s : State) : Step → Id → Prop
  | .shared (.releaseWrapper c source), y =>
    s.world.IsClosed ∧ s.wrapperAt c source = some y ∧ s.world.store.HoldsLast y
  | _, _ => False

/-! ## Plans that unwind -/

/-- If the plan unwinds, it has given up what it uses up, and no other reference to an object. -/
def Plan.Retreats (p : Plan) (slots : Slots) (w : World) : Prop := p.act.Retreats w (p.uses slots)

theorem retreats_answering {act : Act Value} (h : act.Retreats w (credit (slots.objectAt c) 1)) :
    ((Plan.answering act).consuming c).Retreats slots w :=
  h.bind fun _ _ => ends_pure trivial

theorem retreats_answering_still {act : Act Value} (hs : w.store.Sound)
    (h : Respects World.Still act w) (hc : slots.objectAt c = none) :
    ((Plan.answering act).consuming c).Retreats slots w := by
  refine retreats_answering ?_
  rw [hc]
  exact retreats_of_still h hs

theorem retreats_answering_quiet {act : Act Value} (hs : w.store.Sound)
    (h : Respects World.Quiet act w) : (Plan.answering act).Retreats slots w :=
  retreats_answering_still (c := none) hs (still_of_quiet h) rfl

/-- What is made of an act that unwinds is not made. -/
theorem retreats_holding {name : String} {α : Type} {act : Act α} {g : α → Option Id}
    {slot : Id → Slot} (h : act.Retreats w (credit (slots.objectAt c) 1)) :
    ((Plan.making name (act >>= fun a => holding slot (g a))).consuming c).Retreats slots w :=
  h.bind fun _ _ => ends_holding fun _ => trivial

theorem retreats_holding_still {name : String} {α : Type} {act : Act α} {g : α → Option Id}
    {slot : Id → Slot} (hs : w.store.Sound) (h : Respects World.Still act w)
    (hc : slots.objectAt c = none) :
    ((Plan.making name (act >>= fun a => holding slot (g a))).consuming c).Retreats slots w := by
  refine retreats_holding ?_
  rw [hc]
  exact retreats_of_still h hs

/-- What only makes a slot does not unwind. -/
theorem retreats_pure {name : String} {r : Value × Slot} :
    ((Plan.making name (pure r)).consuming c).Retreats slots w :=
  retreats_of_not_unwound (ends_pure trivial)

/-! ## Handles -/

/-- Another reference to an object is taken for a slot. -/
theorem retreats_retain {name : String} {o : Id} {view : SharedInterface} (hs : w.store.Sound) :
    (Plan.making name (do
      retain o
      pure (.null, .handle o view))).Retreats slots w :=
  retreats_of_not_unwound (ends_bind (ends_retain hs.earlier o) fun _ _ _ =>
    ends_pure trivial)

theorem retreats_giveUp {source : String} {slot : Slot} {act : Act Unit} (hs : w.store.Sound)
    (hfit : slot.Fits w.store) (hsource : slots.argument (some source) = .ok slot)
    (hact : HandleStep.giveUp slot = .ok act) :
    ((Plan.answering (silently act)).consuming source).Retreats slots w := by
  have hobject := Slots.objectAt_of_argument hsource
  cases slot with
  | handle o view =>
    cases hact
    refine retreats_answering ?_
    rw [hobject]
    have hdrop : (drop o).Retreats w (credit (some o) 1) :=
      (retreats_release_object hs hfit).bind fun _ _ => ends_pure trivial
    exact hdrop.bind fun _ _ => ends_pure trivial
  | owner o view =>
    cases hact
    exact retreats_answering_still hs (respects_silently (respects_dispose o)) hobject
  | loan x =>
    cases hact
    exact retreats_answering_still hs (respects_silently (respects_dispose x)) hobject
  | _ => cases hact

theorem HandleStep.retreats {x : HandleStep} (h : x.plan slots = .ok p) (hs : w.store.Sound)
    (hfit : slots.Fit w.store) : p.Retreats slots w := by
  cases planned h with
  | clone | retain => exact retreats_retain hs
  | drop source slot act hslot hact => exact retreats_giveUp hs (hfit.argument hslot) hslot hact
  | leak | reclaim | upcast => exact retreats_pure
  | release source o view ho =>
    refine retreats_answering ?_
    rw [Slots.objectAt_of_argument ho]
    exact (retreats_release_object hs (hfit.argument ho)).bind fun _ _ => ends_pure trivial
  | same => exact retreats_answering_quiet hs (respects_pure _)
  | ask question _ o => exact retreats_answering_quiet hs (respects_asTruth (respects_ask _ o))
  | reportedTag _ _ o =>
    refine retreats_answering_quiet hs (respects_bind (respects_entity o) fun e _ _ => ?_)
    cases e.reportedTag? <;> exact respects_pure _
  | value _ _ o | otherValue _ _ o =>
    exact retreats_answering_quiet hs (respects_asNumber (respects_answer _ o))
  | lookup _ index o => exact retreats_answering_quiet hs (respects_lookupIn o index)
  | describe _ slot => exact retreats_answering_quiet hs (respects_shown slot)

/-! ## Crossing the boundary -/

/-- A direct release of a wrapper that a class made. -/
theorem retreats_releaseWrapper {cls : SharedClass} {source : String} {y : Id}
    (hc : w.IsClosed) (hs : w.store.Sound) (hstruct : slots.structAt (some source) = some y)
    (hx : ∀ y, ¬ State.Severs ⟨w, slots⟩ (.shared (.releaseWrapper cls source)) y) :
    (Plan.answering (do
      if ← recognises cls.tag y then asTruth (release y) else pure .null)).Retreats slots w := by
  refine retreats_answering (c := none) ?_
  refine retreats_bind (ends_recognises fun _ w' hq => ?_) fun b w₁ hpost => ?_
  · exact hq.forgoes hs
  · obtain ⟨hq, n, hn, -, found, hfound, rfl⟩ := hpost
    have hs₁ : w₁.store.Sound := hq.store ▸ hs
    have htag : w.store.wrapperTag? y = some found := (Store.wrapperTag?_eq hn).trans hfound
    split
    · rename_i heq
      have hlast : ¬ w₁.store.HoldsLast y := by
        rw [hq.store]
        refine fun hlast => hx y ⟨hc, ?_, hlast⟩
        unfold State.wrapperAt
        rw [hstruct]
        simp [htag, beq_iff_eq.mp heq]
      have hrelease : (asTruth (release y)).Retreats w₁ 0 :=
        (retreats_release_wrapper hs₁ (hq.store ▸ htag) hlast).bind fun _ _ => ends_pure trivial
      exact fun e w' hact => hq.trans_forgoes hs (hrelease e w' hact)
    · exact fun e w' hact => by cases hact

theorem SharedStep.retreats {x : SharedStep} (h : x.plan slots = .ok p) (hc : w.IsClosed)
    (hs : w.store.Sound) (hx : ∀ y, ¬ State.Severs ⟨w, slots⟩ (.shared x) y) :
    p.Retreats slots w := by
  cases planned h with
  | null => exact retreats_pure (c := none)
  | wrap cls source name o ho =>
    refine retreats_holding (c := source) ?_
    rw [Slots.objectAt_of_argument ho]
    exact retreats_wrap cls name hc hs
  | unwrap => exact retreats_holding (c := none) (retreats_running_bind hc hs)
  | inspect cls source y =>
    refine retreats_answering_quiet hs
      (respects_bind (respects_sharedInspect cls y) fun r _ _ => ?_)
    cases r <;> exact respects_pure _
  | retainWrapper cls source y =>
    refine retreats_answering (c := none) (retreats_of_ends (P := fun _ _ => True) ?_)
    refine ends_bind (ends_recognises fun _ w' hq => ?_) fun b w₁ hpost => ?_
    · exact hq.forgoes hs
    · obtain ⟨hq, -⟩ := hpost
      split
      · exact ends_bind (ends_retain (hq.store ▸ hs.earlier) y) fun _ _ _ => ends_pure trivial
      · exact ends_pure trivial
  | releaseWrapper cls source y hy =>
    exact retreats_releaseWrapper hc hs (Slots.structAt_of_argument hy) hx
  | receive cls source name y =>
    refine retreats_quiet_bind hs respects_requireShared fun _ w₁ hq => ?_
    have hreceive : (cls.receive name y).Retreats w₁ 0 :=
      retreats_running_bind (hq.later.isClosed hc) (hq.store ▸ hs)
    exact hreceive.bind fun _ _ => ends_holding fun _ => trivial
  | giveBack cls source name o ho =>
    refine retreats_holding (c := source) ?_
    rw [Slots.objectAt_of_argument ho]
    exact retreats_giveBack cls hc hs
  | target step source o =>
    refine retreats_answering (c := none) (retreats_of_not_unwound ?_)
    refine ends_entity_bind fun n _ _ => ?_
    have hthrough {α β : Type} {s : Id} {position : Nat} {absent : α} {act : Act α} {f : α → β} :
        Ends (through s position absent act >>= fun a => pure (f a)) w (fun _ _ => True)
          fun _ _ => False :=
      ends_bind ends_through_contained fun _ _ _ => ends_pure trivial
    cases n.entity with
    | sharedProxy q =>
      cases step with
      | retain => exact hthrough
      | release => exact ends_bind hthrough fun _ _ _ => ends_pure trivial
      | ask question => exact ends_bind hthrough fun _ _ _ => ends_pure trivial
      | struct => exact fun _ => trivial
      | tag => exact ends_pure trivial
    | _ => exact ends_refuse

/-! ## Steps -/

/-- Steps with owned entities leave all references alone. -/
theorem OwnedStep.retreats {x : OwnedStep} (h : x.plan slots = .ok p) (hs : w.store.Sound)
    (hfit : slots.Fit w.store) : p.Retreats slots w := by
  cases planned h with
  | null => exact retreats_pure (c := none)
  | give cls source name o ho =>
    exact retreats_holding_still hs (cls.respects_give name (hfit.argument ho))
      (Slots.objectAt_of_argument ho)
  | lend cls source name o ho =>
    exact retreats_holding_still (c := none) hs (cls.respects_lend name (hfit.argument ho)) rfl
  | loanStruct source name y =>
    exact retreats_holding_still (c := none) (g := fun _ => some y) hs
      (respects_discard (respects_entity y)) rfl
  | takeBack cls source name y =>
    exact retreats_holding_still (c := none) hs (cls.respects_takeBack y) rfl
  | borrowNull => exact retreats_answering_quiet hs (respects_pure _)
  | borrow cls source y =>
    exact retreats_answering_quiet hs (respects_bind (cls.respects_borrow y) fun _ _ _ =>
      respects_asName _)
  | inspect cls source y =>
    refine retreats_answering_quiet hs (respects_bind (respects_ownedInspect cls y) fun r _ _ => ?_)
    cases r <;> exact respects_pure _
  | adopt cls source name y =>
    show (Plan.making name (requireOwned y >>= fun _ => cls.adopt name y >>= fun a =>
      holding (fun o => .owner o cls.ownedInterface) (some a))).Retreats slots w
    rw [← bind_assoc]
    exact retreats_holding_still (c := none) hs (respects_requireOwned_bind fun hr =>
      cls.respects_adopt name hr) rfl
  | surrender cls source name o ho =>
    exact retreats_holding_still hs (cls.respects_surrender o) (Slots.objectAt_of_argument ho)
  | reveal cls source name o =>
    exact retreats_holding_still (c := none) hs (still_of_quiet (cls.respects_reveal o)) rfl
  | takeTarget source name o =>
    exact retreats_holding_still (c := none) hs (ProxyClass.respects_takeTarget o) rfl

theorem StructStep.retreats {x : StructStep} (h : x.plan slots = .ok p) (hs : w.store.Sound) :
    p.Retreats slots w := by
  cases planned h with
  | call source member r y r' =>
    refine retreats_answering (c := none) ?_
    refine retreats_quiet_bind hs (respects_position y member) fun i w₁ hq => ?_
    exact (retreats_call (hq.store ▸ hs)).bind fun _ _ => ends_pure trivial
  | clear source member y =>
    refine retreats_answering_still (c := none) hs ?_ rfl
    exact respects_bind (respects_position y member) fun i _ _ =>
      respects_silently (respects_change fun t => t.continues_clear i)
  | resize source n y =>
    exact retreats_answering_still (c := none) hs
      (respects_silently (respects_change fun t => t.continues_withSize n)) rfl
  | size source y =>
    exact retreats_answering_quiet hs
      (respects_map (respects_struct y))
  | object cls source y =>
    exact retreats_answering_quiet hs (respects_bind (respects_objectOf _ y) fun _ _ _ =>
      respects_asName _)

theorem DeviceStep.retreats {x : DeviceStep} {source : String} (h : x.plan slots source = .ok p)
    (hs : w.store.Sound) : p.Retreats slots w := by
  obtain ⟨y, -, rfl⟩ := planned h
  cases x with
  | countUp =>
    refine retreats_answering (c := none) (retreats_of_not_unwound ?_)
    exact ends_bind (ends_countUp hs y) fun _ _ _ => ends_pure trivial
  | countDown =>
    refine retreats_answering (c := none) (Retreats.bind ?_ fun _ _ => ends_pure trivial)
    refine retreats_of_ends (ends_mono (ends_countDown hs y) (fun _ _ h => h) fun _ _ h => ?_)
    exact (h.of_eq neg_zero.symm).forgoes
  | countAsk q => exact retreats_answering_quiet hs (respects_asFlag (respects_countAsk q y))
  | signal =>
    exact retreats_answering_still (c := none) hs (respects_silently (respects_checkerSignal y)) rfl
  | isShutdown => exact retreats_answering_quiet hs (respects_asFlag (respects_checker y))
  | require =>
    exact retreats_answering_quiet hs (respects_silently (respects_bind (respects_checker y)
      fun _ _ _ => respects_require _ _))

/-- A new entity is made without a check. -/
theorem Creation.retreats {c : Creation} {name : String} (h : c.plan name = .ok p) :
    p.Retreats slots w := by
  obtain ⟨e, slot, -, rfl⟩ := planned h
  exact retreats_of_not_unwound (ends_make fun _ => trivial)

theorem ProcessStep.retreats (x : ProcessStep) (hs : w.store.Sound) :
    (Plan.answering x.act).Retreats slots w :=
  retreats_answering_still (c := none) hs (x.respects_act World.Quiet.still still_of_store_eq) rfl

/-- Unless it severs a wrapper from its object, a step that unwinds gives up the reference in the
slot that it uses up, and no other reference to an object. -/
theorem Step.retreats {x : Step} (h : x.plan slots = .ok p)
    (hc : (∀ step, x ≠ .process step) → w.IsClosed) (hs : w.store.Sound)
    (hfit : slots.Fit w.store) (hx : ∀ y, ¬ State.Severs ⟨w, slots⟩ x y) : p.Retreats slots w := by
  cases x with
  | create c name => exact Creation.retreats h
  | handle step => exact HandleStep.retreats h hs hfit
  | shared step => exact SharedStep.retreats h (hc nofun) hs hx
  | owned step => exact OwnedStep.retreats h hs hfit
  | struct step => exact StructStep.retreats h hs
  | device step source => exact DeviceStep.retreats h hs
  | process step =>
    cases h
    exact step.retreats hs

end ObjectBoundary.Session
