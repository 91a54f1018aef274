import ObjectBoundary.Proofs.Session.Plans

/-!
# Steps that do not cross the boundary

Making entities, passing handles around and using devices keep the balance.
-/

namespace ObjectBoundary.Session

open ObjectBoundary Act

variable {slots : Slots} {s : State} {w : World} {p : Plan}

/-! ## Handles -/

section Looks

variable {R : World → World → Prop} [IsPreorder World R]

theorem respects_lookupIn (x : Id) (index : Int32) :
    Respects R (HandleStep.lookupIn x index) w := by
  apply respects_entity_bind
  intro n hn hlive
  cases n.entity with
  | sharedObject o =>
    dsimp only
    cases o.object.behavior with
    | table first => exact respects_pure _
    | _ => exact respects_refuse _
  | _ => exact respects_refuse _

theorem respects_shown (slot : Slot) : Respects R (HandleStep.shown slot) w := by
  cases slot with
  | handle o view =>
    apply respects_entity_bind
    intro n hn hlive
    cases n.entity <;> exact respects_pure _
  | owner o view =>
    refine respects_entity_bind fun n hn hlive => ?_
    cases n.entity with
    | ownedProxy p => exact respects_pure _
    | _ => exact respects_refuse _
  | loan x =>
    exact respects_map (respects_discard (respects_entity x))
  | struct x => exact respects_map (respects_struct x)
  | device x =>
    refine respects_entity_bind fun n hn hlive => ?_
    cases n.entity with
    | counter c => exact respects_pure _
    | checker b => exact respects_pure _
    | _ => exact respects_refuse _
  | _ => exact respects_refuse _

end Looks

/-- A slot that gives its reference to the one made from it. -/
theorem balances_exchange {name source : String} {slot slot' : Slot} (hs : w.store.Sound)
    (hsource : slots.argument (some source) = .ok slot) (ho : slot'.object? = slot.object?)
    (hfits : slot'.Fits w.store) :
    ((Plan.making name (pure (.null, slot'))).consuming source).Balances slots w fun _ => 0 := by
  refine balances_making (ends_pure ⟨?_, hfits, fun z hz => absurd rfl hz⟩)
  apply ((refl_of World.Quiet w).turns hs).of_eq
  rw [Slot.holds, ho, Slots.objectAt_of_argument hsource, add_zero, sub_self]

/-- Taking another reference to an object and holding it. -/
theorem balances_retain {name : String} {o : Id} {view : SharedInterface} (hs : w.store.Sound)
    (hr : w.store.HasRole o .sharedObject) :
    (Plan.making name (do
      retain o
      pure (.null, .handle o view))).Balances slots w fun _ => 0 := by
  refine balances_making (c := none) (ends_bind (ends_retain_ascends hs o) fun _ w' h => ?_)
  refine ends_pure ⟨h.turns.of_eq ?_, h.continues.hasRole hr, fun z hz => absurd rfl hz⟩
  exact (sub_zero _).symm.trans (congrArg (· - 0) (add_zero _).symm)

/-- Giving up the reference that a slot holds. -/
theorem balances_release {act : Act Value} {source : String} {slot : Slot} {o : Id}
    (hs : w.store.Sound) (hsource : slots.argument (some source) = .ok slot)
    (ho : slot.object? = some o)
    (h : Ends act w (fun _ w' => w.Descends w' (credit (some o) (-1))) World.Disturbed) :
    ((Plan.answering act).consuming source).Balances slots w fun _ => 0 := by
  refine balances_answering (ends_mono h (fun _ w' h' => ?_) fun _ _ hd => Or.inl hd)
  refine ⟨(h'.turns hs).of_eq ?_, fun z hz => absurd rfl hz⟩
  rw [credit_neg, Slots.objectAt_of_argument hsource, ho, zero_sub]

/-- Giving up whatever a slot holds. -/
theorem balances_giveUp {source : String} {slot : Slot} {act : Act Unit} (hs : w.store.Sound)
    (hsource : slots.argument (some source) = .ok slot) (hact : HandleStep.giveUp slot = .ok act) :
    ((Plan.answering (silently act)).consuming source).Balances slots w fun _ => 0 := by
  have hobject := Slots.objectAt_of_argument hsource
  cases slot with
  | handle o view =>
    cases hact
    exact balances_release hs hsource rfl
      (ends_bind (ends_drop_descends hs o) fun _ _ h => ends_pure h)
  | owner o view =>
    cases hact
    exact balances_of_still hs (respects_silently (respects_dispose o)) hobject
  | loan x =>
    cases hact
    exact balances_of_still hs (respects_silently (respects_dispose x)) hobject
  | _ => cases hact

/-- Under another interface a slot holds the same object. -/
theorem HandleStep.upcastSlot_keeps {slot slot' : Slot} {target : Upcast}
    (h : upcastSlot target slot = .ok slot') (hfits : slot.Fits w.store) :
    slot'.object? = slot.object? ∧ slot'.Fits w.store := by
  cases slot with
  | handle o view =>
    cases target <;> cases view <;> first | (cases h; exact ⟨rfl, hfits⟩) | cases h
  | owner o view =>
    cases target <;> cases view <;> first | (cases h; exact ⟨rfl, hfits⟩) | cases h
  | _ => cases h

theorem HandleStep.balances {x : HandleStep} (h : x.plan slots = .ok p) (hs : w.store.Sound)
    (hfit : slots.Fit w.store) : p.Balances slots w fun _ => 0 := by
  cases planned h with
  | clone _ _ o view ho | retain _ _ o view ho => exact balances_retain hs (hfit.argument ho)
  | drop _ slot act hslot hact => exact balances_giveUp hs hslot hact
  | leak _ _ o view ho | reclaim _ _ o view ho =>
    have hr : w.store.HasRole o .sharedObject := hfit.argument ho
    exact balances_exchange hs ho rfl hr
  | release _ o view ho =>
    exact balances_release hs ho rfl
      (ends_bind (ends_release_descends hs o) fun _ _ h => ends_pure h)
  | upcast _ target _ slot slot' hslot hup =>
    obtain ⟨ho, hfits⟩ := upcastSlot_keeps hup (hfit.argument hslot)
    exact balances_exchange hs hslot ho hfits
  | same => exact balances_of_quiet hs (respects_pure _)
  | ask question _ o => exact balances_of_quiet hs (respects_asTruth (respects_ask _ o))
  | reportedTag _ _ o =>
    refine balances_of_quiet hs (respects_bind (respects_entity o) fun e _ _ => ?_)
    cases e.reportedTag? <;> exact respects_pure _
  | value _ _ o | otherValue _ _ o =>
    exact balances_of_quiet hs (respects_asNumber (respects_answer _ o))
  | lookup _ index o => exact balances_of_quiet hs (respects_lookupIn o index)
  | describe _ slot => exact balances_of_quiet hs (respects_shown slot)

/-! ## New entities -/

/-- A new entity that nobody refers to and that refers to nobody. -/
theorem turns_push (name : String) {e : Entity} (hs : w.store.Sound)
    (hc : Node.Counted ⟨name, e, true⟩) (hf : e.Formed) (hlink : e.below? = none)
    (hback : e.backing? = none) (hfreed : Node.isFreed ⟨name, e, true⟩ = false) :
    w.Turns { w with store := w.store.push ⟨name, e, true⟩ }
      (credit (some w.store.size) e.references) := by
  have hbacks : ∀ z, (Node.backs z ⟨name, e, true⟩ : Int) = credit e.backing? e.references z :=
    fun z => Node.backs_eq rfl z
  have hmoves := World.moves_push hs rfl hc hf (fun y hy => by
    rw [show e.below? = some y from hy] at hlink
    cases hlink) hbacks
  refine ⟨hmoves.of_eq ?_, fun z => ⟨0, 0, by simp [World.changes]⟩, fun z hz => Or.inl ?_⟩
  · rw [hback, credit_none, sub_zero]
  · change (w.store.push ⟨name, e, true⟩).isFreed z = true at hz
    rw [Store.isFreed, Store.get?_push] at hz
    split at hz
    · rw [Option.any_some, hfreed] at hz
      cases hz
    · exact hz

/-- Making an entity, and the slot that holds it. -/
theorem ends_make {c : Creation} {name : String} {e : Entity} {slot : Id → Slot}
    {Q : Value × Slot → World → Prop} {U : Failure → World → Prop}
    (hQ : ∀ v, Q (v, slot w.store.size) { w with store := w.store.push ⟨name, e, true⟩ }) :
    Ends
      (do
        let x ← create name e
        if c.isDevice then pure (.null, slot x) else holding slot (some x))
      w Q U := by
  refine ends_bind (P := fun x w' => x = w.store.size ∧
    w' = { w with store := w.store.push ⟨name, e, true⟩ }) (fun _ => ⟨rfl, rfl⟩) ?_
  intro _ w' hpost
  obtain ⟨rfl, hw'⟩ := hpost
  rw [← hw'] at hQ
  split
  · exact ends_pure (hQ _)
  · exact ends_holding hQ

/-- Making an entity that is not shared. -/
theorem balances_make_still {c : Creation} {name : String} {e : Entity} {slot : Id → Slot}
    (hs : w.store.Sound) (hns : e.isShared = false) (hf : e.Formed) (hlink : e.below? = none)
    (hslot : ∀ st : Store, (slot w.store.size).object? = none ∧
      (st.HasRole w.store.size e.role → (slot w.store.size).Fits st)) :
    (Plan.making name (do
      let x ← create name e
      if c.isDevice then pure (.null, slot x) else holding slot (some x))).Balances slots w
        fun _ => 0 := by
  have hstill : w.Still { w with store := w.store.push ⟨name, e, true⟩ } :=
    World.still_push hns rfl hf fun y hy => by
      rw [show e.below? = some y from hy] at hlink
      cases hlink
  refine balances_making (c := none) (ends_make fun v => ?_)
  obtain ⟨hobject, hfits⟩ := hslot (w.store.push ⟨name, e, true⟩)
  refine ⟨(hstill.turns hs).of_eq ?_, hfits ⟨_, Store.get?_push_size _ _, rfl⟩,
    fun z hz => absurd rfl hz⟩
  rw [Slot.holds, hobject]
  rfl

/-- Making a shared entity, of which the slot holds a reference or the ledger tells. -/
theorem balances_make {c : Creation} {name : String} {e : Entity} {slot : Id → Slot}
    {handed : Slot → Ledger} (hs : w.store.Sound) (hc : Node.Counted ⟨name, e, true⟩)
    (hf : e.Formed) (hlink : e.below? = none) (hback : e.backing? = none)
    (hfreed : Node.isFreed ⟨name, e, true⟩ = false)
    (hslot : (slot w.store.size).holds + handed (slot w.store.size) =
      credit (some w.store.size) e.references)
    (hfits : ∀ st : Store, st.HasRole w.store.size e.role → (slot w.store.size).Fits st ∧
      ∀ z, handed (slot w.store.size) z ≠ 0 → st.HasRole z .sharedStructure) :
    (Plan.making name (do
      let x ← create name e
      if c.isDevice then pure (.null, slot x) else holding slot (some x))).Balances slots w
        handed := by
  have hturn := turns_push name hs hc hf hlink hback hfreed
  refine balances_making (c := none) (ends_make fun v => ?_)
  obtain ⟨hfits, hroles⟩ := hfits (w.store.push ⟨name, e, true⟩)
    ⟨_, Store.get?_push_size _ _, rfl⟩
  refine ⟨hturn.of_eq ?_, hfits, hroles⟩
  rw [hslot]
  exact (sub_zero _).symm

theorem Creation.balances {c : Creation} {name : String} (h : c.plan name = .ok p)
    (hs : w.store.Sound) :
    p.Balances slots w fun made => (Step.create c name).handed s made := by
  obtain ⟨e, slot, he, rfl⟩ := planned h
  cases c with
  | sharedObject object =>
    cases he
    refine balances_make hs (Count.fits_succ rfl rfl) trivial rfl rfl rfl ?_
      fun st hr => ⟨hr, fun z hz => absurd rfl hz⟩
    exact add_zero _
  | sharedFar answers size null =>
    cases he
    have hcounted : Node.Counted ⟨name, .sharedFar ⟨answers,
        Creation.farStruct Layout.sharedChild size null, 1, false⟩, true⟩ := by
      refine ⟨rfl, ?_⟩
      intro hle
      change (1 : Int) ≤ 0 at hle
      omega
    refine balances_make hs hcounted rfl rfl rfl rfl ?_ fun st hr => ⟨trivial, fun z hz => ?_⟩
    · exact zero_add _
    · by_cases hz' : z = w.store.size
      · exact hz' ▸ hr
      · exact absurd (credit_of_ne hz' 1) hz
  | ownedObject object =>
    dsimp only [Creation.entity] at he
    cases hview : Creation.ownedView object.behavior with
    | none => rw [hview] at he; cases he
    | some view =>
      rw [hview] at he
      cases he
      exact balances_make_still hs rfl trivial rfl fun st => ⟨rfl, fun hr => hr⟩
  | ownedFar answers size null =>
    cases he
    exact balances_make_still hs rfl rfl rfl fun st => ⟨rfl, fun _ => trivial⟩
  | counter =>
    cases he
    exact balances_make_still hs rfl trivial rfl fun st => ⟨rfl, fun _ => trivial⟩
  | checker =>
    cases he
    exact balances_make_still hs rfl trivial rfl fun st => ⟨rfl, fun _ => trivial⟩

/-! ## Devices -/

/-- A counter changes, which concerns no entity. -/
theorem turns_counter {x : Id} {name : String} {c a : Count} {live : Bool} {e : Event} {d : Int}
    (hs : w.store.Sound) (hn : w.store.get? x = some ⟨name, .counter c, live⟩)
    (he : ∀ z, e.change? z = if x = z then some d else none) (hd : d = 1 ∨ d = -1)
    (hdrop : ∀ z, e ≠ .dropped z) :
    w.Turns { w with
      store := w.store.modify x fun n => { n with entity := .counter a },
      log := w.log ++ [e] } 0 := by
  have hstill := World.still_modify (f := fun n => { n with entity := .counter a }) (l := []) hn
    (Node.keeps_of_not_isShared rfl ⟨rfl, id, trivial⟩) (fun _ => rfl)
    fun z => by simp [Node.standing]
  have hturns := hstill.turns hs
  have hchanges {z : Id} (hz : x ≠ z) : [e].filterMap (Event.change? z) = [] := by
    simp [he, hz]
  refine ⟨⟨hturns.sound, hturns.continues, hturns.outside, fun z hz => ?_, fun z => ?_⟩,
    fun z => ?_, hturns.freed⟩
  · have hne : x ≠ z := by
      intro heq
      subst heq
      obtain ⟨n, hn', hshared⟩ := hz
      cases hn.symm.trans hn'
      cases hshared
    rw [← hturns.told z hz]
    simp [World.changes, hchanges hne]
  · rw [← hturns.drops z]
    simp [World.drops, hdrop z]
  · by_cases hz : x = z
    · rcases hd with rfl | rfl
      · exact ⟨1, 0, by simp [World.changes, he, hz]⟩
      · exact ⟨0, 1, by simp [World.changes, he, hz]⟩
    · exact ⟨0, 0, by simp [World.changes, he, hz]⟩

theorem ends_counter_bind {α : Type} {x : Id} {f : Count → Act α} {Q : α → World → Prop}
    {U : Failure → World → Prop}
    (h : ∀ name c live, w.store.get? x = some ⟨name, .counter c, live⟩ → live = true →
      Ends (f c) w Q U) : Ends (counter x >>= f) w Q U := by
  unfold counter
  rw [bind_assoc]
  apply ends_entity_bind
  intro n hn hlive
  obtain ⟨name, e, live⟩ := n
  cases e with
  | counter c => exact h name c live hn hlive
  | _ => exact ends_refuse

theorem ends_countUp (hs : w.store.Sound) (x : Id) {U : Failure → World → Prop} :
    Ends (countUp x) w (fun _ w' => w.Turns w' 0) U := by
  show Ends ((counter x >>= fun _ => pure PUnit.unit) >>= fun _ => raise x) w _ _
  rw [bind_assoc]
  apply ends_counter_bind
  intro name c live hn hlive
  apply ends_entity_bind
  intro n hn' _
  cases hn.symm.trans hn'
  refine ends_ofOption_bind rfl (ends_modify_bind (ends_modify_bind ?_))
  split
  · exact ends_abort
  · exact ends_pure (turns_counter (d := 1) hs hn (fun z => rfl) (Or.inl rfl) fun _ => nofun)

theorem ends_countDown (hs : w.store.Sound) (x : Id) :
    Ends (countDown x) w (fun _ w' => w.Turns w' 0) fun _ w' => w.Turns w' 0 := by
  show Ends ((counter x >>= fun _ => pure PUnit.unit) >>= fun _ => lower x) w _ _
  rw [bind_assoc]
  refine ends_counter_bind fun name c live hn hlive => ?_
  refine ends_entity_bind fun n hn' _ => ?_
  cases hn.symm.trans hn'
  refine ends_ofOption_bind rfl (ends_modify_bind (ends_modify_bind ?_))
  have hturn := turns_counter (a := c.pred) (e := .lowered x) (d := -1) hs hn (fun z => rfl)
    (Or.inr rfl) fun _ => nofun
  refine ends_bind (ends_mono (ends_of_respects (respects_require _ _))
    (fun _ _ hq => hturn.quiet hq) fun _ _ hq => hturn.quiet hq) fun _ _ h => ends_pure h

theorem respects_checkerSignal (x : Id) : Respects World.Still (checkerSignal x) w := by
  unfold checkerSignal checker
  rw [bind_assoc]
  refine respects_entity_bind fun n hn hlive => ?_
  obtain ⟨name, e, live⟩ := n
  cases e with
  | checker b =>
    have hput : Respects World.Still (put x (.checker true)) w :=
      respects_put_owned hn rfl trivial rfl
    show Respects World.Still (put x (.checker true) >>= fun _ => require (!b) .shutdownTwice) w
    exact respects_bind hput fun _ _ _ => still_of_quiet (respects_require _ _)
  | _ => exact respects_refuse _

theorem respects_checker (x : Id) : Respects World.Quiet (checker x) w := by
  refine respects_entity_bind fun n hn hlive => ?_
  cases n.entity with
  | checker b => exact respects_pure _
  | _ => exact respects_refuse _

theorem respects_countAsk (q : Question) (x : Id) : Respects World.Quiet (countAsk q x) w := by
  refine respects_map ?_
  refine respects_entity_bind fun n hn hlive => ?_
  cases n.entity with
  | counter c => exact respects_pure _
  | _ => exact respects_refuse _

theorem DeviceStep.balances {x : DeviceStep} {source : String} (h : x.plan slots source = .ok p)
    (hs : w.store.Sound) : p.Balances slots w fun _ => 0 := by
  obtain ⟨y, -, rfl⟩ := planned h
  have hturns {act : Act Value}
      (hact : Ends act w (fun _ w' => w.Turns w' 0) fun _ w' => w.Turns w' 0) :
      (Plan.answering act).Balances slots w fun _ => 0 :=
    balances_answering (c := none) (ends_mono hact
      (fun _ _ ht => ⟨ht.of_eq (sub_zero _).symm, fun z hz => absurd rfl hz⟩)
      fun _ _ ht => Or.inr (ht.of_eq neg_zero.symm))
  cases x with
  | countUp => exact hturns (ends_bind (ends_countUp hs y) fun _ _ ht => ends_pure ht)
  | countDown => exact hturns (ends_bind (ends_countDown hs y) fun _ _ ht => ends_pure ht)
  | countAsk q => exact balances_of_quiet hs (respects_asFlag (respects_countAsk q y))
  | signal =>
    exact balances_of_still (c := none) hs (respects_silently (respects_checkerSignal y)) rfl
  | isShutdown => exact balances_of_quiet hs (respects_asFlag (respects_checker y))
  | require =>
    exact balances_of_quiet hs (respects_silently (respects_bind (respects_checker y)
      fun _ _ _ => respects_require _ _))

/-! ## The process -/

theorem still_of_store_eq {w w' : World} (hl : w.Later w') (hstore : w'.store = w.store)
    (hlog : w'.log = w.log) : w.Still w' := by
  refine ⟨hl, fun hs => hstore ▸ hs, hstore ▸ .refl _, fun z => ?_, fun z => ?_, fun z => ?_,
    fun z => ?_, fun z => ?_⟩
  · rw [hstore]
  · rw [hstore]
  · rw [World.changes, hlog, World.changes]
  · rw [World.drops, hlog, hstore, World.drops]
  · rw [hstore]

section Process

variable {R : World → World → Prop} [IsPreorder World R]
  (hquiet : ∀ {w w' : World}, w.Quiet w' → R w w')
  (hprocess : ∀ {w w' : World}, w.Later w' → w'.store = w.store → w'.log = w.log → R w w')
include hquiet hprocess

theorem respects_signalShutdown : Respects R signalShutdown w := by
  apply respects_bind (respects_mono respects_settings fun _ hq => hquiet hq)
  intro s w₁ _
  split
  · apply respects_get_bind
    apply respects_bind (respects_modify (hprocess ⟨rfl, fun _ h => h, fun _ => rfl⟩ rfl rfl))
    intro _ _ _
    apply respects_bind (respects_mono (respects_require _ _) fun _ hq => hquiet hq)
    intro _ w₂ _
    have harmed : Respects World.Quiet (emit .shutdownArmed) w₂ :=
      respects_emit (fun _ => rfl) fun _ => nofun
    exact respects_mono harmed fun _ hq => hquiet hq
  · exact respects_pure _

theorem respects_install (t : Settings) : Respects R (install t) w := by
  apply respects_get_bind
  split
  · exact respects_pure _
  · rename_i hnone
    have hsame (t' : Settings) (ht : w.settings = some t') : False := by
      rw [ht] at hnone
      exact absurd rfl hnone
    apply respects_bind (respects_modify
      (hprocess ⟨rfl, fun t' ht => (hsame t' ht).elim, fun h => h⟩ rfl rfl))
    intro _ w₁ _
    have hinstalled : Respects World.Quiet (emit (.installed t)) w₁ :=
      respects_emit (fun _ => rfl) fun _ => nofun
    exact respects_bind (respects_mono hinstalled fun _ hq => hquiet hq) fun _ _ _ =>
      respects_pure _

/-- Steps that concern the process leave all entities alone. -/
theorem ProcessStep.respects_act (x : ProcessStep) : Respects R x.act w := by
  have looking {α : Type} {act : Act α} {w' : World} (h : Respects World.Quiet act w') :
      Respects R act w' := respects_mono h fun _ hq => hquiet hq
  cases x with
  | shutDown =>
    refine respects_silently (respects_contained (respects_bind (looking ?_)
      fun _ _ _ => respects_signalShutdown hquiet hprocess))
    exact respects_emit (e := .shutdownBegan) (fun _ => rfl) fun _ => nofun
  | signalShutdown => exact respects_silently (respects_signalShutdown hquiet hprocess)
  | requireRunning => exact respects_silently (looking respects_requireRunning)
  | hasShutDown => exact respects_asFlag (respects_map respects_get)
  | buildSettings d => exact respects_pure _
  | defaultSettings => exact respects_pure _
  | currentSettings =>
    exact respects_map (looking respects_settings)
  | environmentSettings =>
    exact respects_bind (respects_map respects_get)
      fun _ _ _ => respects_pure _
  | install d =>
    apply respects_bind (respects_install hquiet hprocess _)
    intro r _ _
    rcases r with e | ⟨⟩ <;> exact respects_pure _
  | check condition message => exact respects_silently (looking (respects_require _ _))
  | checkEqual left right => exact respects_silently (looking (respects_require _ _))
  | fail message => exact respects_silently (looking (respects_check _))
  | failWhileUnwinding first second =>
    refine looking (respects_ensuring ?_ fun _ _ => ?_)
    · exact respects_map (respects_check _)
    · exact respects_bind (respects_check _) fun _ _ _ =>
        respects_emit (e := .guardDone) (fun _ => rfl) fun _ => nofun
  | compute value message =>
    refine looking (respects_contained ?_)
    cases message with
    | none => exact respects_pure _
    | some text => exact respects_map (respects_check _)

end Process

end ObjectBoundary.Session
