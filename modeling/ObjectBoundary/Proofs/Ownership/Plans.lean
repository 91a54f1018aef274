import ObjectBoundary.Proofs.Ownership.Owned
import ObjectBoundary.Proofs.Session.Balance

/-!
# Custody in the steps of a session

A slot can own an object. A plan that is done moves the objects that the slot it uses up and the
one it makes own, and a plan that unwinds no more than what it uses up. What ceases to exist by a
step can be told beforehand.

* `Slots.owners`: the slots that own an object.
* `State.struck`, `State.emptied`: what a step destroys, with and without what it owns.
* `Step.custody`: what each step does to custody.
-/

namespace ObjectBoundary.Session

open ObjectBoundary Act

variable {slots : Slots} {s : State} {w : World} {p : Plan}

/-! ## Slots that own -/

/-- The object that a slot owns. -/
def Slot.owned? : Slot → Option Id
  | .owner o _ => some o
  | _ => none

namespace Slots

/-- The object that an argument owns. -/
def ownedAt (slots : Slots) (source : Option String) : Option Id :=
  (source.bind slots.find?).bind Slot.owned?

/-- The number of slots that own an object. -/
def owners (slots : Slots) (z : Id) : Nat := slots.counted Slot.owned? z

variable {source : Option String} {slot : Slot}

theorem ownedAt_of_argument (h : slots.argument source = .ok slot) :
    slots.ownedAt source = slot.owned? := bind_of_argument h rfl

theorem ownedAt_of_find? {name : String} (h : slots.find? name = some slot) :
    slots.ownedAt (some name) = slot.owned? := ownedAt_of_argument (argument_of_find? h)

end Slots

/-! ## What ceases to exist -/

/-- What is destroyed when a slot is given up. -/
def Slot.given? : Slot → Option Id
  | .owner o _ => some o
  | .loan x => some x
  | _ => none

namespace State

/-- What a step destroys with all that it owns: what a slot held that is given up, an object that is
given up to a class that does not know it, or the structure whose function `del` is called. -/
def struck (s : State) : Step → Option Id
  | .handle (.drop source) => (s.slots.find? source).bind Slot.given?
  | .owned (.surrender c source _) =>
    (s.slots.ownedAt source).filter fun x => !c.empties s.world.store x
  | .struct (.call source member r) =>
    if member = "del" then s.calleeAt source Layout.del r else none
  | _ => none

/-- What a step destroys without what it owned: a wrapper whose object is taken back, or a proxy
whose structure is. -/
def emptied (s : State) : Step → Option Id
  | .owned (.takeBack c source _) => (s.slots.structAt source).filter (c.empties s.world.store)
  | .owned (.surrender c source _) => (s.slots.ownedAt source).filter (c.empties s.world.store)
  | _ => none

/-- All that is destroyed with what a step strikes. -/
def deleted (s : State) (x : Step) : List Id :=
  (s.struck x).elim [] fun y => s.world.store.doomed (s.world.store.chain y)

/-- What ceases to exist by a step. -/
def gone (s : State) (x : Step) : List Id := s.deleted x ++ (s.emptied x).toList

/-! What a step strikes, told from what its arguments hold. -/

theorem struck_of_drop {source : String} {slot : Slot}
    (h : s.slots.argument (some source) = .ok slot) :
    s.struck (.handle (.drop source)) = slot.given? := by
  rw [struck, Slots.argument_eq h, Option.bind_some]

theorem struck_of_null {x : OwnedStep} {source : Option String} {name : String}
    (hx : x.TakesNull source name) (h : s.slots.argument source = .ok .null) :
    s.struck (.owned x) = none := by
  cases hx with
  | surrender c =>
    rw [struck, Slots.ownedAt_of_argument h]
    rfl
  | _ => rfl

theorem emptied_of_null {x : OwnedStep} {source : Option String} {name : String}
    (hx : x.TakesNull source name) (h : s.slots.argument source = .ok .null) :
    s.emptied (.owned x) = none := by
  cases hx with
  | takeBack c =>
    rw [emptied, Slots.structAt_of_argument h]
    rfl
  | surrender c =>
    rw [emptied, Slots.ownedAt_of_argument h]
    rfl
  | _ => rfl

theorem struck_of_surrender {c : ProxyClass} {source : Option String} {o : Id}
    {view : OwnedInterface} (name : String) (h : s.slots.argument source = .ok (.owner o view)) :
    s.struck (.owned (.surrender c source name)) =
      if c.empties s.world.store o then none else some o := by
  rw [struck, Slots.ownedAt_of_argument h, Slot.owned?, Option.filter_some]
  cases c.empties s.world.store o <;> rfl

theorem emptied_of_surrender {c : ProxyClass} {source : Option String} {o : Id}
    {view : OwnedInterface} (name : String) (h : s.slots.argument source = .ok (.owner o view)) :
    s.emptied (.owned (.surrender c source name)) =
      if c.empties s.world.store o then some o else none := by
  rw [emptied, Slots.ownedAt_of_argument h, Slot.owned?, Option.filter_some]

theorem emptied_of_takeBack {c : OwnedClass} {source : Option String} {y : Id} (name : String)
    (h : s.slots.argument source = .ok (.struct y)) :
    s.emptied (.owned (.takeBack c source name)) =
      if c.empties s.world.store y then some y else none := by
  rw [emptied, Slots.structAt_of_argument h, Slot.struct?, Option.filter_some]

theorem struck_of_call {source member : String} {r : Receiver} {y : Id} {r' : Option Id}
    (hy : s.slots.argument (some source) = .ok (.struct y))
    (hr : StructStep.receiver s.slots y r = .ok r') :
    s.struck (.struct (.call source member r)) =
      if member = "del" then s.world.store.callee? y Layout.del r' else none := by
  rw [struck, ← calleeAt_eq hy hr]

end State

/-! ## Plans -/

/-- A plan moves what its slots own, and what ceases to exist is as foreseen. -/
def Plan.Custody (p : Plan) (slots : Slots) (w : World) (gone : List Id) : Prop :=
  p.act.Ends w
    (fun r w' => w.Custody w' (credit r.2.owned? 1 - credit (slots.ownedAt p.consumes) 1) gone)
    fun e w' => World.Disturbed e w' ∨ w.Custody w' (-credit (slots.ownedAt p.consumes) 1) gone

section Plans

variable {c : Option String} {gone : List Id} {name source : String}

theorem custody_answering {act : Act Value}
    (h : Ends act w (fun _ w' => w.Custody w' (-credit (slots.ownedAt c) 1) gone)
      fun e w' => World.Disturbed e w' ∨ w.Custody w' (-credit (slots.ownedAt c) 1) gone) :
    ((Plan.answering act).consuming c).Custody slots w gone := by
  apply ends_bind h
  intro v w' h'
  apply ends_pure
  apply h'.of_eq
  intro z
  show _ = credit none 1 z - _
  rw [credit_none, Pi.zero_apply, zero_sub]
  rfl

/-- What is apart from ownership and makes no owner. -/
theorem custody_making_apart {act : Act (Value × Slot)} (h : Respects World.Apart act w)
    (hc : slots.ownedAt c = none)
    (hslot : Ends act w (fun r _ => r.2.owned? = none) fun _ _ => True) :
    ((Plan.making name act).consuming c).Custody slots w [] := by
  refine ends_mono (ends_and_respects hslot h) (fun r w' h' => ?_) fun _ w' h' => Or.inr ?_
  · refine h'.2.custody.of_eq fun z => ?_
    show _ = (credit r.2.owned? 1 - credit (slots.ownedAt c) 1) z
    rw [h'.1, hc]
    rfl
  · refine h'.2.custody.of_eq fun z => ?_
    show _ = (-credit (slots.ownedAt c) 1 : Id → Int) z
    rw [hc]
    rfl

theorem custody_apart {act : Act Value} (h : Respects World.Apart act w)
    (hc : slots.ownedAt c = none) : ((Plan.answering act).consuming c).Custody slots w [] := by
  apply custody_answering
  have hcustody {w' : World} (h : w.Apart w') :
      w.Custody w' (-credit (slots.ownedAt c) 1) [] := by
    rw [hc]
    exact h.custody
  exact ends_mono (ends_of_respects h) (fun _ _ h => hcustody h) fun _ _ h => Or.inr (hcustody h)

theorem custody_quiet {act : Act Value} (h : Respects World.Quiet act w) :
    (Plan.answering act).Custody slots w [] :=
  custody_apart (c := none) (apart_of_quiet h) rfl

/-- An act whose result is held in the slot that is made. -/
theorem custody_holding {α : Type} {act : Act α} {g : α → Option Id} {slot : Id → Slot}
    (h : Ends act w
      (fun a w' => w.Custody w'
        (credit ((g a).bind fun x => (slot x).owned?) 1 - credit (slots.ownedAt c) 1) gone)
      fun e w' => World.Disturbed e w' ∨ w.Custody w' (-credit (slots.ownedAt c) 1) gone) :
    ((Plan.making name (act >>= fun a => holding slot (g a))).consuming c).Custody slots w
      gone := by
  apply ends_bind h
  intro a w' h'
  apply ends_holding
  intro v
  cases hx : g a with
  | none => rwa [hx] at h'
  | some x => rwa [hx] at h'

/-- An act apart from ownership whose result is held in a slot that owns nothing. -/
theorem custody_holding_apart {α : Type} {act : Act α} {g : α → Option Id} {slot : Id → Slot}
    (h : Respects World.Apart act w) (hc : slots.ownedAt c = none)
    (hslot : ∀ x, (slot x).owned? = none) :
    ((Plan.making name (act >>= fun a => holding slot (g a))).consuming c).Custody slots w [] := by
  apply custody_making_apart _ hc
  · apply ends_bind ends_true
    intro a _ _
    apply ends_holding
    intro v
    cases g a with
    | none => rfl
    | some x => exact hslot x
  · exact respects_held h

theorem custody_null : (Plan.making name (pure (.null, .null))).Custody slots w [] :=
  custody_making_apart (c := none) (respects_pure _) rfl (ends_pure rfl)

/-- A slot that gives what it owns to the one made from it. -/
theorem custody_exchange {slot slot' : Slot} (hsource : slots.argument (some source) = .ok slot)
    (ho : slot'.owned? = slot.owned?) :
    ((Plan.making name (pure (.null, slot'))).consuming source).Custody slots w [] := by
  apply ends_pure
  apply (refl_of World.Quiet w).custody.of_eq
  intro z
  show (0 : Int) = (credit slot'.owned? 1 - credit (slots.ownedAt (some source)) 1) z
  rw [Slots.ownedAt_of_argument hsource, ho, sub_self]
  rfl

end Plans

/-! ## Handles and new entities -/

theorem HandleStep.owned?_upcastSlot {slot slot' : Slot} {target : Upcast}
    (h : upcastSlot target slot = .ok slot') : slot'.owned? = slot.owned? := by
  cases slot with
  | handle o view => cases target <;> cases view <;> first | (cases h; rfl) | cases h
  | owner o view => cases target <;> cases view <;> first | (cases h; rfl) | cases h
  | _ => cases h

/-- Giving up whatever a slot holds. -/
theorem custody_giveUp {source : String} {slot : Slot} {act : Act Unit} (hl : w.store.Linked)
    (hfits : slot.Fits w.store) (hsource : slots.argument (some source) = .ok slot)
    (hact : HandleStep.giveUp slot = .ok act) :
    ((Plan.answering (silently act)).consuming source).Custody slots w
      (slot.given?.elim [] fun y => w.store.doomed (w.store.chain y)) := by
  have howned := Slots.ownedAt_of_argument hsource
  cases slot with
  | handle o view =>
    cases hact
    exact custody_apart (respects_silently (apart_drop o)) howned
  | owner o view =>
    cases hact
    apply custody_answering
    rw [howned, Slot.owned?, ← credit_neg]
    exact ends_bind (ends_mono (ends_dispose_object hl hfits) (fun _ _ h => h)
      fun _ _ hd => Or.inl hd) fun _ _ h => ends_pure h
  | loan x =>
    cases hact
    obtain ⟨n, v, hn, he, -⟩ := hfits
    have hrole : n.entity.role ≠ .ownedObject := by
      rw [he]
      exact nofun
    apply custody_answering
    have hnone : slots.ownedAt (some source) = none := howned
    rw [hnone, credit_none, neg_zero]
    exact ends_bind (ends_mono (ends_dispose_structure hl hn hrole) (fun _ _ h => h)
      fun _ _ hd => Or.inl hd) fun _ _ h => ends_pure h
  | _ => cases hact

theorem HandleStep.custody {x : HandleStep} (h : x.plan s.slots = .ok p)
    (hs : s.world.store.Sound) (hfit : s.slots.Fit s.world.store) :
    p.Custody s.slots s.world (s.gone (.handle x)) := by
  have hretain {o : Id} {view : SharedInterface} {name : String} :
      (Plan.making name (do
        Act.retain o
        pure (.null, .handle o view))).Custody s.slots s.world [] :=
    custody_making_apart (c := none) (respects_map (apart_retain o))
      rfl (ends_bind ends_true fun _ _ _ => ends_pure rfl)
  cases planned h with
  | clone | retain => exact hretain
  | drop source slot act hslot hact =>
    have hgone : s.gone (.handle (.drop source)) =
        slot.given?.elim [] fun y => s.world.store.doomed (s.world.store.chain y) := by
      rw [State.gone, State.deleted, State.struck_of_drop hslot]
      exact List.append_nil _
    rw [hgone]
    exact custody_giveUp hs.linked (hfit.argument hslot) hslot hact
  | leak _ _ o view ho | reclaim _ _ o view ho => exact custody_exchange ho rfl
  | release source o view ho =>
    exact custody_apart (respects_asTruth (apart_release o)) (Slots.ownedAt_of_argument ho)
  | upcast source target name slot slot' hslot hup =>
    exact custody_exchange hslot (owned?_upcastSlot hup)
  | same => exact custody_quiet (respects_pure _)
  | ask question _ o => exact custody_quiet (respects_asTruth (respects_ask _ o))
  | reportedTag _ _ o =>
    refine custody_quiet (respects_bind (respects_entity o) fun e _ _ => ?_)
    cases e.reportedTag? <;> exact respects_pure _
  | value _ _ o | otherValue _ _ o => exact custody_quiet (respects_asNumber (respects_answer _ o))
  | lookup _ index o => exact custody_quiet (respects_lookupIn o index)
  | describe _ slot => exact custody_quiet (respects_shown slot)

theorem Creation.custody {c : Creation} {name : String} (h : c.plan name = .ok p) :
    p.Custody slots w [] := by
  obtain ⟨e, slot, he, rfl⟩ := planned h
  refine ends_make fun v => ?_
  -- What is made is owned by its slot, if it is owned at all.
  have hshare (hg : e.isGuarded = true)
      (hslot : ∀ x z, Node.share x z ⟨name, e, true⟩ = credit (slot x).owned? 1 z) :
      w.store.Custody (w.store.push ⟨name, e, true⟩)
        (credit (slot w.store.size).owned? 1 - credit (slots.ownedAt none) 1) [] := by
    refine (Store.custody_push hg).of_eq fun z => ?_
    rw [hslot]
    exact (sub_zero _).symm
  cases c with
  | ownedObject object =>
    dsimp only [Creation.entity] at he
    cases hview : Creation.ownedView object.behavior with
    | none => rw [hview] at he; cases he
    | some view =>
      rw [hview] at he
      cases he
      exact hshare rfl fun x z => Node.share_object rfl rfl x z
  | _ =>
    cases he
    exact hshare rfl fun x z => Node.share_of_not_isOwned rfl x z

/-! ## Crossing the boundary -/

theorem SharedStep.custody {x : SharedStep} (h : x.plan slots = .ok p) :
    p.Custody slots w [] := by
  have hwrapper (c : SharedClass) {x : Id} {act : Act Value}
      (hact : ∀ w' : World, Respects World.Apart act w') :
      (Plan.answering (do
        if ← recognises c.tag x then act else pure .null)).Custody slots w [] := by
    refine custody_apart (c := none) (respects_bind (apart_of_quiet (respects_recognises _ _))
      fun b w' _ => ?_) rfl
    split
    · exact hact w'
    · exact respects_pure _
  cases planned h with
  | null => exact custody_null
  | wrap c source name o ho =>
    exact custody_holding_apart (c.apart_wrap name o) (Slots.ownedAt_of_argument ho) fun _ => rfl
  | unwrap c source name y =>
    exact custody_holding_apart (c := none) (c.apart_unwrap y) rfl fun _ => rfl
  | inspect c source y =>
    refine custody_quiet (respects_bind (respects_sharedInspect c y) fun r _ _ => ?_)
    cases r <;> exact respects_pure _
  | retainWrapper c source y =>
    apply hwrapper c
    intro _
    exact respects_map (apart_retain y)
  | releaseWrapper c source y => exact hwrapper c fun _ => respects_asTruth (apart_release y)
  | receive c source name y =>
    show (Plan.making name (requireShared y >>= fun _ => c.receive name y >>= fun a =>
      holding (fun o => .handle o c.sharedInterface) (some a))).Custody slots w []
    rw [← bind_assoc]
    exact custody_holding_apart (c := none)
      (respects_bind respects_requireShared fun _ _ _ => c.apart_receive name y) rfl fun _ => rfl
  | giveBack c source name o ho =>
    exact custody_holding_apart (c.apart_giveBack o) (Slots.ownedAt_of_argument ho) fun _ => rfl
  | target step source o =>
    refine custody_apart (c := none) (respects_entity_bind fun n _ _ => ?_) rfl
    cases n.entity with
    | sharedProxy q =>
      cases step with
      | retain => exact respects_silently (ProxyClass.apart_retainTarget q)
      | release => exact respects_asFlag (ProxyClass.apart_releaseTarget q)
      | ask q' => exact apart_of_quiet (respects_asFlag (ProxyClass.respects_askTarget q' q))
      | struct => exact respects_asName _
      | tag => exact respects_pure _
    | _ => exact respects_refuse _

theorem OwnedStep.custody {x : OwnedStep} (h : x.plan s.slots = .ok p)
    (hs : s.world.store.Sound) (hfit : s.slots.Fit s.world.store) :
    p.Custody s.slots s.world (s.gone (.owned x)) := by
  cases planned h with
  | null x source name hx hnull =>
    have hgone : s.gone (.owned x) = [] := by
      rw [State.gone, State.deleted, State.struck_of_null hx hnull, State.emptied_of_null hx hnull]
      rfl
    rw [hgone]
    exact custody_null
  | give c source name o ho =>
    refine custody_holding (c := source) (g := some) (ends_mono (c.ends_give_custody name o)
      (fun _ _ h => h.of_eq fun z => ?_) fun _ _ hd => Or.inl hd)
    rw [credit_neg, Slots.ownedAt_of_argument ho]
    exact (zero_sub _).symm
  | lend c source name o =>
    exact custody_holding (c := none) (g := some) (ends_mono (c.ends_lend_custody name o)
      (fun _ _ h => h.of_eq fun z => (sub_zero _).symm) fun _ _ hd => Or.inl hd)
  | loanStruct source name y =>
    exact custody_holding_apart (c := none) (g := fun _ => some y)
      (respects_discard (respects_entity y)) rfl fun _ => rfl
  | takeBack c source name y hy =>
    have hgone : s.gone (.owned (.takeBack c source name)) = c.retrieved s.world.store y := by
      rw [State.gone, State.emptied_of_takeBack name hy, OwnedClass.retrieved]
      split <;> rfl
    rw [hgone]
    refine custody_holding (c := none) (g := id) (ends_mono (c.ends_takeBack_custody y)
      (fun a _ h => h.of_eq fun z => ?_) fun _ _ h => h.imp id fun h => h.of_eq fun z => ?_)
    · cases a with
      | none => exact (sub_zero _).symm
      | some o => exact (sub_zero _).symm
    · exact neg_zero.symm
  | borrowNull => exact custody_quiet (respects_pure _)
  | borrow c source y =>
    exact custody_quiet (respects_bind (c.respects_borrow y) fun _ _ _ => respects_asName _)
  | inspect c source y =>
    refine custody_quiet (respects_bind (respects_ownedInspect c y) fun r _ _ => ?_)
    cases r <;> exact respects_pure _
  | adopt c source name y =>
    show (Plan.making name (requireOwned y >>= fun _ => c.adopt name y >>= fun a =>
      holding (fun o => .owner o c.ownedInterface) (some a))).Custody s.slots s.world []
    rw [← bind_assoc]
    refine custody_holding (c := none) (g := some) (ends_bind (P := fun _ w' => s.world.Quiet w')
      (ends_mono (ends_of_respects respects_requireOwned) (fun _ _ h => h) fun _ _ h => ?_)
      fun _ w' hq => ?_)
    · exact Or.inr h.custody
    · refine ends_mono (c.ends_adopt_custody name y) (fun _ _ h => ?_) fun _ _ hd => Or.inl hd
      exact (hq.trans_custody h).of_eq fun z => (sub_zero _).symm
  | surrender c source name o ho =>
    have howned : s.slots.ownedAt source = some o := Slots.ownedAt_of_argument ho
    have hgone : s.gone (.owned (.surrender c source name)) =
        c.surrendered s.world.store o := by
      rw [State.gone, State.deleted, State.struck_of_surrender name ho,
        State.emptied_of_surrender name ho, ProxyClass.surrendered]
      cases c.empties s.world.store o with
      | true => rfl
      | false => exact List.append_nil _
    rw [hgone]
    refine custody_holding (c := source) (g := id) (ends_mono
      (c.ends_surrender_custody hs.linked (hfit.argument ho)) (fun a _ h => h.of_eq fun z => ?_)
      fun _ _ hu => hu.imp id fun h => h.of_eq fun z => ?_)
    · rw [credit_neg, howned]
      cases a <;> exact (zero_sub _).symm
    · rw [credit_neg, howned]
  | reveal c source name o =>
    exact custody_holding_apart (c := none) (apart_of_quiet (c.respects_reveal o)) rfl
      fun _ => rfl
  | takeTarget source name o =>
    refine custody_holding (c := none) (g := id) (ends_mono (ProxyClass.ends_takeTarget_custody o)
      (fun a _ h => h.of_eq fun z => ?_) fun _ _ h => h)
    cases a <;> exact (sub_zero _).symm

/-! ## Structures -/

/-- What a structure says about itself concerns nobody who owns something. -/
theorem ends_change_custody {x : Id} {f : Structure → Structure}
    (hf : ∀ t : Structure, t.Continues (f t)) {U : Failure → World → Prop} :
    Ends (StructStep.change x f) w (fun _ w' => w.Custody w' 0 []) U := by
  apply ends_entity_bind
  intro n hn hlive
  obtain ⟨name, e, live⟩ := n
  cases hlive
  cases ht : e.struct? with
  | none => exact ends_refuse
  | some t => exact ends_ofOption_bind rfl (ends_withStruct_custody hn ht (hf t))

/-- A call destroys something if it is one of the function `del`. -/
theorem ends_call_position_custody (hs : w.store.Sound) {x : Id} {member : String}
    {r : Option Id} :
    Ends (StructStep.position x member >>= fun i => call x i r) w
      (fun _ w' => w.Custody w' 0 (if member = "del" then w.store.deletedBy x r else []))
      fun e w' => World.Disturbed e w' ∨
        w.Custody w' 0 (if member = "del" then w.store.deletedBy x r else []) := by
  apply ends_position_bind
  intro n t i hn ht hi
  rcases Entity.role_of_struct? ht with hr | hr
  · have hmember : member ≠ "del" := by
      rintro rfl
      cases ((hs.formed x n hn).not_deletes hr ht).symm.trans hi
    rw [if_neg hmember]
    exact ends_mono (ends_of_respects (apart_call ⟨n, hn, hr⟩ i)) (fun _ _ h => h.custody)
      fun _ _ h => Or.inr h.custody
  · have hdel := Layout.position_del_of_owned ((hs.formed x n hn).isOwned hr ht) hi
    have hcall := ends_call_custody hs.linked ⟨n, hn, hr⟩ i (r := r)
    simp only [hdel] at hcall
    exact hcall

theorem StructStep.custody {x : StructStep} (h : x.plan s.slots = .ok p)
    (hs : s.world.store.Sound) : p.Custody s.slots s.world (s.gone (.struct x)) := by
  have hanswering {act : Act Value} {gone : List Id}
      (h : Ends act s.world (fun _ w' => s.world.Custody w' 0 gone)
        fun e w' => World.Disturbed e w' ∨ s.world.Custody w' 0 gone) :
      (Plan.answering act).Custody s.slots s.world gone :=
    custody_answering (c := none) (ends_mono h (fun _ _ h => h.of_eq fun z => neg_zero.symm)
      fun _ _ hu => hu.imp id fun h => h.of_eq fun z => neg_zero.symm)
  cases planned h with
  | call source member r y r' hy hr =>
    have hgone : s.gone (.struct (.call source member r)) =
        if member = "del" then s.world.store.deletedBy y r' else [] := by
      rw [State.gone, State.deleted, State.struck_of_call hy hr, Store.deletedBy]
      split <;> exact List.append_nil _
    rw [hgone]
    apply hanswering
    rw [← bind_assoc]
    exact ends_bind (ends_call_position_custody hs) fun _ _ h => ends_pure h
  | clear source member y =>
    apply hanswering
    refine ends_bind (P := fun _ w' => s.world.Quiet w') (ends_mono (ends_of_respects
      (respects_position y member)) (fun _ _ h => h) fun _ _ h => ?_) fun i w' hq => ?_
    · exact Or.inr h.custody
    exact ends_bind (ends_mono (ends_change_custody fun t => t.continues_clear i)
      (fun _ _ h => hq.trans_custody h) fun _ _ h => h) fun _ _ h => ends_pure h
  | resize source n y =>
    exact hanswering (ends_bind (ends_change_custody fun t => t.continues_withSize n)
      fun _ _ h => ends_pure h)
  | size source y =>
    exact custody_quiet (respects_map (respects_struct y))
  | object c source y =>
    exact custody_quiet (respects_bind (respects_objectOf _ y) fun _ _ _ => respects_asName _)

/-! ## All steps -/

theorem DeviceStep.custody {x : DeviceStep} {source : String} (h : x.plan slots source = .ok p) :
    p.Custody slots w [] := by
  obtain ⟨y, -, rfl⟩ := planned h
  refine custody_apart (c := none) ?_ rfl
  cases x with
  | countUp => exact respects_silently (apart_countUp y)
  | countDown => exact respects_asFlag (apart_countDown y)
  | countAsk q => exact apart_of_quiet (respects_asFlag (respects_countAsk q y))
  | signal => exact respects_silently (apart_checkerSignal y)
  | isShutdown => exact apart_of_quiet (respects_asFlag (respects_checker y))
  | require =>
    exact apart_of_quiet (respects_silently (respects_bind (respects_checker y)
      fun _ _ _ => respects_require _ _))

/-- A step moves what its slots own, and what ceases to exist by it is as foreseen. -/
theorem Step.custody {x : Step} (h : x.plan s.slots = .ok p) (hs : s.world.store.Sound)
    (hfit : s.slots.Fit s.world.store) : p.Custody s.slots s.world (s.gone x) := by
  cases x with
  | create c name => exact Creation.custody h
  | handle step => exact HandleStep.custody h hs hfit
  | shared step => exact SharedStep.custody h
  | owned step => exact OwnedStep.custody h hs hfit
  | struct step => exact StructStep.custody h hs
  | device step source => exact DeviceStep.custody h
  | process step =>
    cases h
    refine custody_apart (c := none) (step.respects_act World.Quiet.apart ?_) rfl
    intro w w' _ hstore _
    exact ⟨by rw [hstore], by rw [hstore]⟩

end ObjectBoundary.Session
