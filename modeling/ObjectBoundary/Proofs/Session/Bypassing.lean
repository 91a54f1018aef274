import ObjectBoundary.Proofs.Acts.Bypassing
import ObjectBoundary.Proofs.Session.Undisturbed
import ObjectBoundary.Proofs.Session.UsedUp

/-!
# Steps that bypass a role

The steps on handles and those by which shared objects cross the boundary concern no entity that
is not shared. Only the steps on a device concern it, and the slot that holds it stays.

* `HandleStep.bypasses`, `SharedStep.bypasses`: steps on what is shared.
* `State.get?_device`: a device is as it was, unless the step was one on it.
* `State.deviceAt_step`: the slot of a device stays.
-/

namespace ObjectBoundary.Session

open ObjectBoundary Act

variable {slots : Slots} {s : State} {w : World} {p : Plan} {r : Role} {x : Step} {k : Id}

/-! ## What is shared -/

section Shared

variable (ho : r ≠ .sharedObject) (hs : r ≠ .sharedStructure)
include ho hs

/-- Giving up what a slot holds may dispose of something owned. -/
theorem HandleStep.bypasses {x : HandleStep} (h : x.plan slots = .ok p)
    (hdrop : ∀ source, x = .drop source → r = .device) :
    Respects (World.Bypasses r) p.act w := by
  cases planned h with
  | clone _ _ o | retain _ _ o =>
    exact respects_map (bypasses_retain ho hs o)
  | drop source slot act _ hact =>
    cases hdrop source rfl
    apply respects_answering
    apply respects_silently
    cases slot with
    | handle o view => cases hact; exact bypasses_drop ho hs o
    | owner o view => cases hact; exact bypasses_dispose o
    | loan y => cases hact; exact bypasses_dispose y
    | _ => cases hact
  | leak | reclaim | upcast => exact respects_pure _
  | release _ o => exact respects_answering (respects_asTruth (bypasses_release ho hs o))
  | same => exact respects_answering (respects_pure _)
  | ask question _ o =>
    exact respects_answering (bypasses_of_quiet (respects_asTruth (respects_ask _ o)))
  | reportedTag _ _ o =>
    refine respects_answering (respects_bind (respects_entity o) fun e _ _ => ?_)
    cases e.reportedTag? <;> exact respects_pure _
  | value _ _ o | otherValue _ _ o =>
    exact respects_answering (bypasses_of_quiet (respects_asNumber (respects_answer _ o)))
  | lookup _ index o => exact respects_answering (respects_lookupIn o index)
  | describe _ slot => exact respects_answering (respects_shown slot)

theorem SharedStep.bypasses {x : SharedStep} (h : x.plan slots = .ok p) :
    Respects (World.Bypasses r) p.act w := by
  cases planned h with
  | null => exact respects_pure _
  | wrap c source name o => exact respects_held (g := some) (c.bypasses_wrap ho hs name o)
  | unwrap c source name y => exact respects_held (g := id) (c.bypasses_unwrap ho hs y)
  | inspect c source y =>
    refine respects_answering (respects_bind (bypasses_of_quiet (respects_sharedInspect c y))
      fun a _ _ => ?_)
    cases a <;> exact respects_pure _
  | retainWrapper c source y =>
    refine respects_answering (respects_bind (bypasses_of_quiet (respects_recognises _ y))
      fun b _ _ => ?_)
    split
    · exact respects_map (bypasses_retain ho hs y)
    · exact respects_pure _
  | releaseWrapper c source y =>
    refine respects_answering (respects_bind (bypasses_of_quiet (respects_recognises _ y))
      fun b _ _ => ?_)
    split
    · exact respects_asTruth (bypasses_release ho hs y)
    · exact respects_pure _
  | receive c source name y =>
    refine respects_bind respects_requireShared fun _ _ _ => ?_
    exact respects_held (g := some) (c.bypasses_receive ho hs name y)
  | giveBack c source name o => exact respects_held (g := id) (c.bypasses_giveBack ho hs o)
  | target step source o =>
    refine respects_answering (respects_entity_bind fun n _ _ => ?_)
    cases n.entity with
    | sharedProxy q =>
      cases step with
      | retain => exact respects_silently (ProxyClass.bypasses_retainTarget ho hs q)
      | release => exact respects_asFlag (ProxyClass.bypasses_releaseTarget ho hs q)
      | ask q' => exact bypasses_of_quiet (respects_asFlag (ProxyClass.respects_askTarget q' q))
      | struct => exact respects_asName _
      | tag => exact respects_pure _
    | _ => exact respects_refuse _

end Shared

/-! ## Devices -/

theorem OwnedStep.bypasses {x : OwnedStep} (h : x.plan slots = .ok p) :
    Respects (World.Bypasses .device) p.act w := by
  cases planned h with
  | null => exact respects_pure _
  | give c source name o => exact respects_held (g := some) (c.bypasses_give name o)
  | lend c source name o => exact respects_held (g := some) (c.bypasses_lend name o)
  | loanStruct source name y =>
    exact respects_held (g := fun _ => some y) (respects_discard (respects_entity y))
  | takeBack c source name y => exact respects_held (g := id) (c.bypasses_takeBack y)
  | borrowNull => exact respects_answering (respects_pure _)
  | borrow c source y =>
    exact respects_answering (bypasses_of_quiet
      (respects_bind (c.respects_borrow y) fun _ _ _ => respects_asName _))
  | inspect c source y =>
    refine respects_answering (respects_bind (bypasses_of_quiet (respects_ownedInspect c y))
      fun a _ _ => ?_)
    cases a <;> exact respects_pure _
  | adopt c source name y =>
    refine respects_bind respects_requireOwned fun _ _ _ => ?_
    exact respects_held (g := some) (c.bypasses_adopt name y)
  | surrender c source name o => exact respects_held (g := id) (c.bypasses_surrender o)
  | reveal c source name o =>
    exact respects_held (g := id) (bypasses_of_quiet (c.respects_reveal o))
  | takeTarget source name o => exact respects_held (g := id) (ProxyClass.bypasses_takeTarget o)

theorem bypasses_change (y : Id) (f : Structure → Structure) :
    Respects (World.Bypasses .device) (StructStep.change y f) w := by
  apply respects_entity_bind
  intro n hn _
  cases ht : n.entity.struct? with
  | none => exact respects_refuse _
  | some t =>
    have hrole : n.entity.role ≠ .device := by
      cases he : n.entity <;> rw [he] at ht <;> first | (cases ht; done) | exact nofun
    exact bypasses_replace hn hrole (by rwa [Entity.role_withStruct])

theorem StructStep.bypasses {x : StructStep} (h : x.plan slots = .ok p) :
    Respects (World.Bypasses .device) p.act w := by
  cases planned h with
  | call source member r y r' =>
    refine respects_answering (respects_bind (respects_position y member)
      fun i _ _ => ?_)
    exact respects_map (bypasses_devices_call y i r')
  | clear source member y =>
    refine respects_answering (respects_bind (respects_position y member)
      fun i _ _ => ?_)
    exact respects_silently (bypasses_change y _)
  | resize source n y => exact respects_answering (respects_silently (bypasses_change y _))
  | size source y =>
    exact respects_answering (respects_map (respects_struct y))
  | object c source y =>
    exact respects_answering (bypasses_of_quiet
      (respects_bind (respects_objectOf _ y) fun _ _ _ => respects_asName _))

/-! ## Steps on a device -/

/-- The device that a slot holds. -/
def Slot.device? : Slot → Option Id
  | .device y => some y
  | _ => none

namespace Slots

/-- The device that an argument names. -/
def deviceAt (s : Slots) (source : String) : Option Id := (s.find? source).bind Slot.device?

theorem deviceAt_eq_some {source : String} :
    slots.deviceAt source = some k ↔ slots.find? source = some (.device k) := by
  constructor
  · intro h
    obtain ⟨slot, hslot, h⟩ := Option.bind_eq_some_iff.mp h
    cases slot <;> cases h
    exact hslot
  · intro h
    rw [deviceAt, h]
    rfl

theorem device_of_deviceAt {source : String} (h : slots.deviceAt source = some k) :
    slots.device source = .ok k := by
  rw [device, argument_of_find? (deviceAt_eq_some.mp h)]
  rfl

end Slots

/-- One entity is as it was. -/
def World.Spares (k : Id) (w w' : World) : Prop := w'.store.get? k = w.store.get? k

instance : IsPreorder World (World.Spares k) where
  refl _ := rfl
  trans _ _ _ h h' := Eq.trans h' h

theorem spares_of_quiet {α : Type} {act : Act α} (h : Respects World.Quiet act w) :
    Respects (World.Spares k) act w :=
  respects_mono h fun _ hq => by rw [World.Spares, hq.store]

theorem spares_put {y : Id} (e : Entity) (h : y ≠ k) : Respects (World.Spares k) (put y e) w := by
  refine fun _ => ?_
  show (w.store.modify y _).get? k = w.store.get? k
  rw [Store.get?_modify, if_neg h]

/-- A step on another device. -/
theorem DeviceStep.spares {y : Id} (step : DeviceStep) (h : y ≠ k) :
    Respects (World.Spares k) (step.act y) w := by
  have hquiet {α : Type} {act : Act α} {w : World} (hact : Respects World.Quiet act w) :
      Respects (World.Spares k) act w := spares_of_quiet hact
  have hcount {w : World} {α : Type} {f : Entity → Count → Act α}
      (hf : ∀ e c w', Respects (World.Spares k) (f e c) w') :
      Respects (World.Spares k) (entity y >>= fun e => ofOption .wrongKind e.count? >>= f e) w := by
    refine respects_bind (respects_entity y) fun e _ _ => ?_
    exact respects_bind (respects_ofOption _ _) fun c w' _ => hf e c w'
  have hemit {e : Event} {w : World} : Respects (World.Spares k) (emit e) w := fun _ => rfl
  cases step with
  | countUp =>
    refine respects_silently (respects_bind (respects_discard (hquiet (respects_counter y)))
      fun _ _ _ => hcount fun e c w' => ?_)
    refine respects_bind (spares_put _ h) fun _ _ _ => respects_bind hemit fun _ _ _ => ?_
    split
    · exact respects_abort
    · exact respects_pure _
  | countDown =>
    refine respects_asFlag (respects_bind (respects_discard (hquiet (respects_counter y)))
      fun _ _ _ => hcount fun e c w' => ?_)
    refine respects_bind (spares_put _ h) fun _ _ _ => respects_bind hemit fun _ _ _ => ?_
    exact respects_map (hquiet (respects_require _ _))
  | countAsk q => exact hquiet (respects_asFlag (respects_countAsk q y))
  | signal =>
    refine respects_silently (respects_bind (hquiet (respects_checker y)) fun b _ _ => ?_)
    exact respects_bind (spares_put _ h) fun _ _ _ => hquiet (respects_require _ _)
  | isShutdown => exact hquiet (respects_asFlag (respects_checker y))
  | require =>
    exact hquiet (respects_silently (respects_bind (respects_checker y)
      fun _ _ _ => respects_require _ _))

/-- A new entity changes none that exists. -/
theorem Creation.spares {c : Creation} {name : String} {n : Node} (h : c.plan name = .ok p)
    (hn : w.store.get? k = some n) (phase : Phase) : (p.act phase w).2.store.get? k = some n := by
  obtain ⟨e, slot, -, rfl⟩ := planned h
  let w₁ : World := { w with store := w.store.push ⟨name, e, true⟩ }
  have hquiet : Respects World.Quiet (if c.isDevice then pure (.null, slot w.store.size) else
      holding slot (some w.store.size)) w₁ := by
    split
    · exact respects_pure _
    · exact respects_holding _ _
  show ((if c.isDevice then pure (.null, slot w.store.size) else
    holding slot (some w.store.size)) phase w₁).2.store.get? k = some n
  rw [(hquiet phase).store]
  show (w.store.push _).get? k = some n
  rw [Store.get?_push, if_neg (Nat.ne_of_lt (Store.lt_size hn)), hn]

/-- A device is as it was, unless a step was one on it. -/
theorem State.get?_device {n : Node} (hn : s.world.store.get? k = some n)
    (hr : n.entity.role = .device)
    (hx : ∀ step source, x = .device step source → s.slots.deviceAt source ≠ some k) :
    (s.step x).2.world.store.get? k = some n := by
  rcases s.step_world x with (hworld | hworld) | ⟨p, hp, -, hworld⟩
  · rw [hworld, hn]
  · rw [hworld]
    exact hn
  rw [hworld]
  have hbypassed (h : Respects (World.Bypasses .device) p.act s.begun) :
      (p.act .normal s.begun).2.store.get? k = some n := (h .normal).get? hn hr
  cases x with
  | create c name => exact Creation.spares (w := s.begun) hp hn .normal
  | handle step => exact hbypassed (HandleStep.bypasses nofun nofun hp fun _ _ => rfl)
  | shared step => exact hbypassed (SharedStep.bypasses nofun nofun hp)
  | owned step => exact hbypassed (OwnedStep.bypasses hp)
  | struct step => exact hbypassed (StructStep.bypasses hp)
  | device step source =>
    obtain ⟨y, hy, rfl⟩ := DeviceStep.planned (x := step) hp
    have hother : y ≠ k := by
      rintro rfl
      exact hx step source rfl (Slots.deviceAt_eq_some.mpr (Slots.argument_eq hy))
    have hspares : Respects (World.Spares k) (Plan.answering (step.act y)).act s.begun :=
      respects_map (step.spares hother)
    exact (hspares .normal).trans hn
  | process step =>
    cases hp
    refine hbypassed (respects_bind (step.respects_act World.Quiet.bypasses ?_)
      fun _ _ _ => respects_pure _)
    intro w w' _ hstore _
    exact ⟨by rw [hstore]⟩

/-! ## Slots that stay -/

namespace State

/-- A slot that holds a device is never used up. -/
theorem deviceAt_step {name : String} (h : s.slots.deviceAt name = some k) :
    (s.step x).2.slots.deviceAt name = some k := by
  rw [Slots.deviceAt_eq_some] at h ⊢
  refine find?_step h fun hx => ?_
  cases hx with
  | dropped hact => cases hact
  | upcast hup => cases hup

end State

end ObjectBoundary.Session
