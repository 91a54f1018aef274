import ObjectBoundary.Proofs.Session.Plans

/-!
# Steps that cross the boundary

A handle that is wrapped enters a reference to the new structure into the ledger, and a structure
of which a proxy is made takes one out. Both ways back do the reverse.
-/

namespace ObjectBoundary.Session

open ObjectBoundary Act

variable {slots : Slots} {s : State} {w : World} {p : Plan}

/-- A null argument makes nothing. -/
theorem balances_null {name : String} {handed : Slot → Ledger} (hs : w.store.Sound)
    (hh : handed .null = 0) :
    (Plan.making name (pure (.null, .null))).Balances slots w handed := by
  refine balances_making (c := none) (ends_pure ⟨?_, trivial, fun z hz => ?_⟩)
  · apply ((refl_of World.Quiet w).turns hs).of_eq
    show (0 : Ledger) = 0 + handed .null - 0
    rw [hh, add_zero, sub_zero]
  · rw [hh] at hz
    exact absurd rfl hz

theorem credit_ne_zero {y : Option Id} {d : Int} {z : Id} (h : credit y d z ≠ 0) : y = some z := by
  by_contra hne
  exact h (if_neg hne)

/-! ## Shared objects -/

/-- A structure comes in exchange for a handle. -/
theorem balances_handle_to_struct {name : String} {source : Option String} {o : Id}
    {view : SharedInterface} {α : Type} {act : Act α} {g : α → Option Id}
    (hsource : slots.argument source = .ok (.handle o view))
    (h : Ends act w
      (fun a w' => w.Turns w' (credit (g a) 1 + credit (some o) (-1)) ∧
        ∀ t, g a = some t → w'.store.HasRole t .sharedStructure)
      fun e w' => World.Disturbed e w' ∨ w.Turns w' (credit (some o) (-1))) :
    ((Plan.making name (act >>= fun a => holding .struct (g a))).consuming source).Balances
      slots w fun made => credit made.struct? 1 := by
  have hobject : slots.objectAt source = some o := Slots.objectAt_of_argument hsource
  refine balances_making (ends_bind (ends_mono h (fun _ _ h => h) fun _ _ hu => ?_)
    fun a w' h' => ends_holding fun v => ?_)
  · rw [hobject, ← credit_neg]
    exact hu
  · obtain ⟨hturn, hrole⟩ := h'
    rw [hobject, sub_eq_add_neg, ← credit_neg]
    cases hr : g a with
    | none =>
      rw [hr] at hturn
      exact ⟨hturn.of_eq rfl, trivial, fun z hz => absurd rfl hz⟩
    | some t =>
      rw [hr] at hturn
      refine ⟨hturn.of_eq ?_, trivial, ?_⟩
      · exact congrArg (· + _) (zero_add _).symm
      · intro z hz
        cases credit_ne_zero hz
        exact hrole t hr

/-- A handle comes in exchange for a reference to a structure. -/
theorem balances_struct_to_handle {name : String} {source : Option String} {x : Id}
    {view : SharedInterface} {α : Type} {act : Act α} {g : α → Option Id}
    (hstruct : slots.structAt source = some x)
    (h : Ends act w
      (fun a w' => w.Turns w' (credit (g a) 1 + credit ((g a).map fun _ => x) (-1)) ∧
        ∀ o, g a = some o →
          w'.store.HasRole o .sharedObject ∧ w'.store.HasRole x .sharedStructure)
      fun e w' => World.Disturbed e w' ∨ w.Turns w' 0) :
    (Plan.making name (act >>= fun a => holding (fun o => .handle o view) (g a))).Balances
      slots w fun made => credit (made.object?.bind fun _ => slots.structAt source) (-1) := by
  refine balances_making (c := none) (ends_bind (ends_mono h (fun _ _ h => h) fun _ _ hu => ?_)
    fun a w' h' => ends_holding fun v => ?_)
  · exact hu.imp id fun ht => ht.of_eq neg_zero.symm
  · obtain ⟨hturn, hrole⟩ := h'
    rw [hstruct]
    cases hr : g a with
    | none =>
      rw [hr] at hturn
      exact ⟨hturn.of_eq rfl, trivial, fun z hz => absurd rfl hz⟩
    | some o =>
      rw [hr] at hturn
      obtain ⟨ho, hx⟩ := hrole o hr
      refine ⟨hturn.of_eq (sub_zero _).symm, ho, ?_⟩
      intro z hz
      cases credit_ne_zero hz
      exact hx

section Kinds

variable {R : World → World → Prop} [IsPreorder World R] {x : Id}

theorem respects_requireShared : Respects R (SharedStep.requireShared x) w := by
  refine respects_entity_bind fun n _ _ => ?_
  split
  · exact respects_pure _
  · exact respects_pure _
  · exact respects_refuse _

theorem respects_requireOwned : Respects R (OwnedStep.requireOwned x) w := by
  refine respects_entity_bind fun n _ _ => ?_
  split
  · exact respects_pure _
  · exact respects_pure _
  · exact respects_refuse _

end Kinds

theorem ends_requireShared_bind {α : Type} {x : Id} {f : Unit → Act α} {Q : α → World → Prop}
    {U : Failure → World → Prop}
    (h : w.store.HasRole x .sharedStructure → Ends (f ()) w Q U) :
    Ends (SharedStep.requireShared x >>= f) w Q U := by
  unfold SharedStep.requireShared
  rw [bind_assoc]
  apply ends_entity_bind
  intro n hn hlive
  obtain ⟨name, e, live⟩ := n
  cases e with
  | sharedWrapper v => exact h ⟨_, hn, rfl⟩
  | sharedFar f => exact h ⟨_, hn, rfl⟩
  | _ => exact ends_refuse

/-- A structure is exchanged for its proxy. -/
theorem ends_requireShared_receive (c : ProxyClass) (name : String) (hs : w.store.Sound) (x : Id) :
    Ends (SharedStep.requireShared x >>= fun _ => c.receive name x) w
      (fun a w' => w.Turns w' (credit (some a) 1 + credit ((some a).map fun _ => x) (-1)) ∧
        ∀ o, some a = some o →
          w'.store.HasRole o .sharedObject ∧ w'.store.HasRole x .sharedStructure)
      fun e w' => World.Disturbed e w' ∨ w.Turns w' 0 := by
  apply ends_requireShared_bind
  intro hr
  refine ends_mono (c.ends_receive name hs hr) ?_ fun _ _ hd => Or.inl hd
  intro a w' hpost
  obtain ⟨hturn, hrole⟩ := hpost
  refine ⟨hturn, ?_⟩
  intro o ho
  cases ho
  exact ⟨hrole, hturn.continues.hasRole hr⟩

/-- A direct call of a wrapper that a class made. -/
theorem balances_wrapper {c : SharedClass} {source : String} {x : Id} {act : Act Value} {d : Int}
    (hs : w.store.Sound) (hstruct : slots.structAt (some source) = some x)
    (hact : ∀ w₁ : World, w₁.store.Sound → w₁.store.wrapperTag? x = some c.tag →
      Ends act w₁ (fun _ w₂ => Calls w₁ w₂ (some x) d) World.Disturbed) :
    (Plan.answering (do
      if ← recognises c.tag x then act else pure .null)).Balances slots w
        fun _ => credit (State.wrapperAt ⟨w, slots⟩ c source) d := by
  have hwrapper : State.wrapperAt ⟨w, slots⟩ c source =
      (some x).filter fun x => decide (w.store.wrapperTag? x = some c.tag) := by
    unfold State.wrapperAt
    rw [hstruct]
  apply balances_answering (c := none)
  rw [hwrapper]
  apply ends_bind (ends_recognises fun e w' hq => Or.inr ((hq.turns hs).of_eq neg_zero.symm))
  intro b w₁ hpost
  obtain ⟨hq, n, hn, -, found, hfound, rfl⟩ := hpost
  have htag : w.store.wrapperTag? x = some found := (Store.wrapperTag?_eq hn).trans hfound
  split
  · rename_i heq
    rw [beq_iff_eq] at heq
    subst heq
    have hfilter : (some x).filter (fun x => decide (w.store.wrapperTag? x = some c.tag)) =
        some x := by simp [htag]
    rw [hfilter]
    refine ends_mono (hact w₁ (hq.store ▸ hs) (hq.store ▸ htag))
      (fun _ w₂ h => ⟨?_, fun z hz => ?_⟩) fun _ _ hd => Or.inl hd
    · exact (hq.trans_turns hs h.1).of_eq (sub_zero _).symm
    · exact h.2 z (credit_ne_zero hz)
  · rename_i hne
    rw [beq_iff_eq] at hne
    have hfilter : (some x).filter (fun x => decide (w.store.wrapperTag? x = some c.tag)) =
        none := by simp [htag, hne]
    rw [hfilter]
    exact ends_pure ⟨(hq.turns hs).of_eq (sub_zero _).symm, fun z hz => absurd rfl hz⟩

/-- A reference to the structure of a proxy, taken or given up through the proxy. -/
theorem ends_targetAct {o : Id} {q : SharedProxy} {n : Node} {source : String} {step : TargetStep}
    (hs : w.store.Sound) (hsource : slots.objectAt (some source) = some o)
    (hn : w.store.get? o = some n) (hq : n.entity = .sharedProxy q) :
    Ends (SharedStep.targetAct q step) w
      (fun _ w' => Calls.Moves w w'
        ((SharedStep.target step source).handed ⟨w, slots⟩ .null))
      fun e w' => World.Disturbed e w' ∨ w.Turns w' 0 := by
  have hr : w.store.HasRole q.target .sharedStructure := by
    have hlinked := (hs.linked o n q.target hn (by rw [hq]; rfl)).2
    rwa [hq] at hlinked
  have htarget (i : Nat) : State.targetAt ⟨w, slots⟩ source i = w.store.callable q.target i := by
    simp [State.targetAt, hsource, hn, hq]
  have hcalls {w' : World} {i : Nat} {d : Int}
      (h : w.Turns w' (credit (w.store.callable q.target i) d)) :
      Calls.Moves w w' (credit (w.store.callable q.target i) d) := by
    refine ⟨h, ?_⟩
    intro z hz
    have hz := credit_ne_zero hz
    unfold Store.callable at hz
    split at hz
    · cases hz
      exact h.continues.hasRole hr
    · cases hz
  have hquiet {act : Act Value} (h : Respects World.Quiet act w) :
      Ends act w (fun _ w' => Calls.Moves w w' 0)
        fun e w' => World.Disturbed e w' ∨ w.Turns w' 0 :=
    ends_mono (ends_of_respects h) (fun _ _ hq => .of_quiet hs hq rfl)
      fun _ _ hq => Or.inr (hq.turns hs)
  cases step with
  | retain =>
    apply ends_bind (ProxyClass.ends_retainTarget hs hr)
    intro _ w' h
    apply ends_pure
    show Calls.Moves w w' (credit (State.targetAt ⟨w, slots⟩ source Layout.addRef) 1)
    rw [htarget]
    exact hcalls h
  | release =>
    apply ends_bind (ProxyClass.ends_releaseTarget hs hr)
    intro _ w' h
    apply ends_pure
    show Calls.Moves w w' (credit (State.targetAt ⟨w, slots⟩ source Layout.release) (-1))
    rw [htarget]
    exact hcalls h
  | ask q' => exact hquiet (respects_asFlag (ProxyClass.respects_askTarget q' q))
  | struct => exact hquiet (respects_asName _)
  | tag => exact hquiet (respects_pure _)

theorem SharedStep.balances {x : SharedStep} (h : x.plan slots = .ok p) (hs : w.store.Sound)
    (hfit : slots.Fit w.store) :
    p.Balances slots w fun made => x.handed ⟨w, slots⟩ made := by
  cases planned h with
  | null x source name hx => cases hx <;> exact balances_null hs rfl
  | wrap c source name o ho =>
    apply balances_handle_to_struct ho
    refine ends_mono (c.ends_wrap name hs (hfit.argument ho)) ?_ fun _ _ hd => Or.inl hd
    intro a w' hpost
    obtain ⟨hturn, n, hn, hcont⟩ := hpost
    refine ⟨hturn, ?_⟩
    intro _ heq
    cases heq
    exact ⟨n, hn, hcont.role⟩
  | unwrap c source name y hy =>
    exact balances_struct_to_handle (Slots.structAt_of_argument hy) (c.ends_unwrap hs y)
  | inspect c source y =>
    refine balances_of_quiet hs (respects_bind (respects_sharedInspect c y) fun r _ _ => ?_)
    cases r <;> exact respects_pure _
  | retainWrapper c source y hy =>
    apply balances_wrapper hs (Slots.structAt_of_argument hy)
    intro w₁ hs₁ htag
    exact ends_bind (ends_retain_calls hs₁ htag) fun _ _ h₂ => ends_pure h₂
  | releaseWrapper c source y hy =>
    apply balances_wrapper hs (Slots.structAt_of_argument hy)
    intro w₁ hs₁ htag
    exact ends_bind (ends_release_calls hs₁ htag) fun _ _ h₂ => ends_pure h₂
  | receive c source name y hy =>
    show (Plan.making name (requireShared y >>= fun _ => c.receive name y >>= fun a =>
      holding (fun o => .handle o c.sharedInterface) (some a))).Balances slots w _
    rw [← bind_assoc]
    exact balances_struct_to_handle (Slots.structAt_of_argument hy)
      (ends_requireShared_receive c name hs y)
  | giveBack c source name o ho =>
    refine balances_handle_to_struct ho (ends_mono (c.ends_giveBack hs o)
      (fun _ _ h => h) fun _ _ hu => ?_)
    exact hu.imp id fun h => h.turns hs
  | target step source o view ho =>
    refine balances_answering (c := none) (ends_entity_bind fun n hn hlive => ?_)
    cases hq : n.entity with
    | sharedProxy q =>
      refine ends_mono (ends_targetAct hs (Slots.objectAt_of_argument ho) hn hq)
        (fun _ w' h' => ?_) fun _ _ hu => ?_
      · exact ⟨h'.1.of_eq (sub_zero _).symm, h'.2⟩
      · exact hu.imp id fun ht => ht.of_eq neg_zero.symm
    | _ => exact ends_refuse

/-! ## Owned objects -/

theorem respects_requireOwned_bind {α : Type} {R : World → World → Prop} [IsPreorder World R]
    {x : Id} {f : Unit → Act α}
    (h : w.store.HasRole x .ownedStructure → Respects R (f ()) w) :
    Respects R (OwnedStep.requireOwned x >>= f) w := by
  unfold OwnedStep.requireOwned
  rw [bind_assoc]
  apply respects_entity_bind
  intro n hn hlive
  obtain ⟨name, e, live⟩ := n
  cases e with
  | ownedWrapper v => exact h ⟨_, hn, rfl⟩
  | ownedFar f => exact h ⟨_, hn, rfl⟩
  | _ => exact respects_refuse _

/-- An owned entity is exchanged for a slot that holds no reference. -/
theorem balances_owned {name : String} {c : Option String} {slot : Id → Slot} {α : Type}
    {act : Act α} {g : α → Option Id} (hs : w.store.Sound) (h : Respects World.Still act w)
    (hc : slots.objectAt c = none) (hslot : ∀ x, (slot x).object? = none)
    (hfits : Ends act w (fun a w' => ∀ x, g a = some x → (slot x).Fits w'.store)
      fun _ _ => True) :
    ((Plan.making name (act >>= fun a => holding slot (g a))).consuming c).Balances slots w
      fun _ => 0 := by
  refine balances_making_still hs (respects_held h) hc ?_
  refine ends_bind hfits fun a w' ha => ends_holding fun v => ?_
  cases hx : g a with
  | none => exact ⟨rfl, trivial⟩
  | some x => exact ⟨hslot x, ha x hx⟩

/-- Slots of structures fit any store. -/
theorem balances_owned_struct {name : String} {c : Option String} {α : Type} {act : Act α}
    {g : α → Option Id} (hs : w.store.Sound) (h : Respects World.Still act w)
    (hc : slots.objectAt c = none) :
    ((Plan.making name (act >>= fun a => holding .struct (g a))).consuming c).Balances slots w
      fun _ => 0 := by
  refine balances_owned hs h hc (fun _ => rfl) (ends_mono ends_true (fun _ _ _ _ _ => ?_)
    fun _ _ h => h)
  trivial

theorem OwnedStep.balances {x : OwnedStep} (h : x.plan slots = .ok p) (hs : w.store.Sound)
    (hfit : slots.Fit w.store) : p.Balances slots w fun _ => 0 := by
  cases planned h with
  | null => exact balances_null hs rfl
  | give c source name o ho =>
    exact balances_owned_struct hs (c.respects_give name (hfit.argument ho))
      (Slots.objectAt_of_argument ho)
  | lend c source name o ho =>
    refine balances_owned (c := none) hs (c.respects_lend name (hfit.argument ho)) rfl
      (fun _ => rfl) (ends_mono (c.ends_lend name o) (fun y _ hy _ heq => ?_) fun _ _ h => h)
    cases heq
    exact hy
  | loanStruct source name y =>
    exact balances_owned_struct (c := none) (g := fun _ => some y) hs
      (respects_discard (respects_entity y)) rfl
  | takeBack c source name y =>
    exact balances_owned (c := none) hs (c.respects_takeBack y) rfl (fun _ => rfl)
      (c.ends_takeBack hs y)
  | borrowNull => exact balances_of_quiet hs (respects_pure _)
  | borrow c source y =>
    exact balances_of_quiet hs (respects_bind (c.respects_borrow y) fun _ _ _ => respects_asName _)
  | inspect c source y =>
    refine balances_of_quiet hs (respects_bind (respects_ownedInspect c y) fun r _ _ => ?_)
    cases r <;> exact respects_pure _
  | adopt c source name y =>
    show (Plan.making name (requireOwned y >>= fun _ => c.adopt name y >>= fun a =>
      holding (fun o => .owner o c.ownedInterface) (some a))).Balances slots w _
    rw [← bind_assoc]
    refine balances_owned (c := none) hs (respects_requireOwned_bind fun hr =>
      c.respects_adopt name hr) rfl (fun _ => rfl) ?_
    refine ends_bind ends_true fun _ w' _ => ends_mono (c.ends_adopt name y) ?_ fun _ _ h => h
    intro a w₂ hr _ heq
    cases heq
    exact hr
  | surrender c source name o ho =>
    exact balances_owned_struct hs (c.respects_surrender o) (Slots.objectAt_of_argument ho)
  | reveal c source name o =>
    exact balances_owned_struct (c := none) hs (still_of_quiet (c.respects_reveal o)) rfl
  | takeTarget source name o =>
    exact balances_owned_struct (c := none) hs (ProxyClass.respects_takeTarget o) rfl

end ObjectBoundary.Session
