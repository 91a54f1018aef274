import ObjectBoundary.Proofs.References.Proxied
import ObjectBoundary.Proofs.Session.Exchange
import ObjectBoundary.Proofs.Session.Tracking

/-!
# How long a structure lasts under its proxy

Handles to a proxy are cloned, given up and asked. As long as one is left, the structure of the far
side behind the proxy is not freed, unless it is released without being retained: then it is freed
already as the proxy takes it over.

* `Step.looks`: steps that leave all entities alone.
* `State.UsesProxy`: steps that clone a handle to a proxy, give one up, or look.
* `State.Fronts`: a proxy to which there are handles only.
* `State.Fronts.step`, `State.Fronts.after`: what one such step and what several do.
* `structure_outlasts_proxy`: when the structure lasts as long as the proxy.
* `not_structure_outlasts_proxy`: a structure without `add_ref` that is freed at once.
-/

namespace ObjectBoundary.Session

open ObjectBoundary Act

variable {s : State} {out : Ledger} {x : Step} {slots : Slots} {plan : Plan} {p f : Id}
  {t : Structure} {k : Standing}

/-! ## Steps that only look -/

/-- A step that asks, calls for a value or shows something. -/
def Step.looks : Step → Bool
  | .handle (.same _ _) | .handle (.ask _ _) | .handle (.reportedTag _) | .handle (.value _)
  | .handle (.otherValue _) | .handle (.lookup _ _) | .handle (.describe _) => true
  | .shared (.target (.ask _) _) | .shared (.target .struct _) | .shared (.target .tag _) => true
  | _ => false

theorem HandleStep.quiet_of_looks {x : HandleStep} (hp : x.plan slots = .ok plan)
    (h : (Step.handle x).looks = true) :
    ∃ act, plan = .answering act ∧ ∀ w, Respects World.Quiet act w := by
  cases planned hp with
  | same => exact ⟨_, rfl, fun w => respects_pure _⟩
  | ask question _ o => exact ⟨_, rfl, fun w => respects_asTruth (respects_ask _ o)⟩
  | reportedTag _ _ o =>
    refine ⟨_, rfl, fun w => respects_bind (respects_entity o) fun e _ _ => ?_⟩
    cases e.reportedTag? <;> exact respects_pure _
  | value _ _ o | otherValue _ _ o =>
    exact ⟨_, rfl, fun w => respects_asNumber (respects_answer _ o)⟩
  | lookup _ index o => exact ⟨_, rfl, fun w => respects_lookupIn o index⟩
  | describe _ slot => exact ⟨_, rfl, fun w => respects_shown slot⟩
  | _ => cases h

theorem SharedStep.quiet_of_looks {x : SharedStep} (hp : x.plan slots = .ok plan)
    (h : (Step.shared x).looks = true) :
    ∃ act, plan = .answering act ∧ ∀ w, Respects World.Quiet act w := by
  cases planned hp with
  | null _ _ _ hx => cases hx <;> cases h
  | target step _ o =>
    refine ⟨_, rfl, fun w => respects_entity_bind fun n hn hlive => ?_⟩
    cases n.entity with
    | sharedProxy q =>
      cases step with
      | ask question => exact respects_asFlag (ProxyClass.respects_askTarget question q)
      | struct => exact respects_asName _
      | tag => exact respects_pure _
      | retain => cases h
      | release => cases h
    | _ => exact respects_refuse _
  | _ => cases h

theorem Step.quiet_of_looks (h : x.looks = true) (hp : x.plan slots = .ok plan) :
    ∃ act, plan = .answering act ∧ ∀ w, Respects World.Quiet act w := by
  cases x with
  | handle step => exact HandleStep.quiet_of_looks hp h
  | shared step => exact SharedStep.quiet_of_looks hp h
  | _ => cases h

/-- A step that only looks leaves entities and slots alone. -/
theorem State.Proceeds.of_looks (hx : s.Proceeds x) (h : x.looks = true) :
    s.begun.Quiet (s.step x).2.world ∧ (s.step x).2.slots = s.slots := by
  obtain ⟨plan, hp, -, hcases⟩ := proceeds_cases hx
  obtain ⟨act, rfl, hquiet⟩ := Step.quiet_of_looks h hp
  have hrespects : Respects World.Quiet (Plan.answering act).act s.begun :=
    respects_map (hquiet s.begun)
  have hworld := hrespects .normal
  rcases hcases with ⟨value, slot, w', hact, -, hstep⟩ | ⟨failure, w', hact, -, hstep⟩
  · rw [hact] at hworld
    rw [hstep]
    exact ⟨hworld, rfl⟩
  · rw [hact] at hworld
    rw [hstep]
    exact ⟨hworld, rfl⟩

/-! ## Steps that use a proxy -/

/-- A step that clones a handle to a proxy or gives one up, or only looks. -/
inductive State.UsesProxy (s : State) (p : Id) : Step → Prop
  | clone {source name : String} {view : SharedInterface} :
    s.slots.find? source = some (.handle p view) → s.UsesProxy p (.handle (.clone source name))
  | drop {source : String} {view : SharedInterface} :
    s.slots.find? source = some (.handle p view) → s.UsesProxy p (.handle (.drop source))
  | look {x : Step} : x.looks = true → s.UsesProxy p x

/-- A proxy of a structure of the far side to which nothing refers but handles. -/
structure State.Fronts (s : State) (p f : Id) (t : Structure) (k : Standing) : Prop where
  tolerant : s.world.IsTolerant
  store : s.world.store.Fronts p f t k
  unleaked : s.slots.leaks p = 0
  unreferred : ∀ z, s.world.store.below? z ≠ some p

theorem Slots.leaks_without (slots : Slots) (name : String) (o : Id) :
    (slots.without name).leaks o ≤ slots.leaks o :=
  List.Sublist.countP_le List.filter_sublist

theorem Slots.leaks_add_handle (slots : Slots) (name : String) (o z : Id) (view : SharedInterface) :
    (slots.add name (.handle o view)).leaks z = slots.leaks z := by
  show ((name, Slot.handle o view) :: slots.entries).countP _ = _
  rw [List.countP_cons, if_neg Bool.false_ne_true]
  rfl

namespace State.Fronts

variable (h : s.Fronts p f t k) (hb : Balanced s out)
include h

theorem hasRole : s.world.store.HasRole p .sharedObject := by
  obtain ⟨name, v, live, hp, -⟩ := h.store.proxy
  exact ⟨_, hp, rfl⟩

include hb

/-- All references to the proxy are handles. -/
theorem own_eq : k.own = s.slots.handles p := by
  have hwrapped : s.world.store.wrapped p = 0 := by
    apply (Store.total_eq_zero_iff _ _).mpr
    intro z n hn
    obtain ⟨name, e, live⟩ := n
    cases e with
    | sharedWrapper v =>
      apply if_neg
      rintro ⟨-, rfl⟩
      exact h.unreferred z (Store.below?_eq_some hn)
    | _ => rfl
  have href := hb.references_object h.hasRole
  obtain ⟨name, v, live, hp, -, hcount⟩ := h.store.proxy
  rw [State.owned, h.unleaked, hwrapped, Store.references, hp] at href
  change (v.count.toNat : Int) = _ at href
  omega

theorem one_le_own {source : String} {view : SharedInterface}
    (hsource : s.slots.find? source = some (.handle p view)) : 1 ≤ k.own := by
  have href := hb.one_le_references hsource rfl
  obtain ⟨name, v, live, hp, -, hcount⟩ := h.store.proxy
  rw [Store.references, hp] at href
  change (1 : Int) ≤ v.count.toNat at href
  omega

/-- Cloning a handle takes a reference to the proxy. -/
theorem clone {source name : String} {view : SharedInterface}
    (hsource : s.slots.find? source = some (.handle p view))
    (hx : s.Proceeds (.handle (.clone source name))) :
    (s.step (.handle (.clone source name))).2.Fronts p f t (k.taken t) := by
  have hends : Ends (holdingAnother p view name).act s.begun
      (fun r w' => s.begun.Retained w' (s.begun.above p) ∧ r.2 = .handle p view)
      fun _ _ => False :=
    ends_bind (ends_retain (w := s.begun) hb.sound.earlier p) fun _ _ hr => ends_pure ⟨hr, rfl⟩
  obtain ⟨plan, hp, -, hcases⟩ := State.proceeds_cases hx
  cases (plan_clone hsource).symm.trans hp
  rcases hcases with ⟨value, slot, w', hact, -, hstep⟩ | ⟨failure, w', hact, -, -⟩
  · obtain ⟨hretained, hslot⟩ := ends_of_done hends hact
    cases hslot
    have hreach : s.begun.above p = s.world.store.reach Layout.addRef [p, f] :=
      congrArg (s.world.store.reach Layout.addRef) (h.store.chain hb.sound.earlier)
    have hstore : w'.store = s.world.store.modifyAll
        (s.world.store.reach Layout.addRef [p, f]) Node.raised := by
      rw [← hreach]
      exact hretained.adjusted.store
    rw [hstep]
    refine ⟨hretained.adjusted.isTolerant h.tolerant, ?_, ?_, ?_⟩
    · show w'.store.Fronts p f t (k.taken t)
      rw [hstore]
      refine h.store.raised fun n hn => hretained.canRise p ?_ n hn
      rw [hreach, Store.reach]
      exact List.mem_cons_self
    · exact (Slots.leaks_add_handle s.slots name p p view).trans h.unleaked
    · intro z
      show w'.store.below? z ≠ some p
      rw [hstore, Store.below?_modifyAll _ _ fun n => Entity.below?_raised n.entity]
      exact h.unreferred z
  · exact (ends_of_unwound hends hact).elim

/-- Giving a handle up gives a reference to the proxy up. -/
theorem drop {source : String} {view : SharedInterface}
    (hsource : s.slots.find? source = some (.handle p view)) :
    (s.step (.handle (.drop source))).2.Fronts p f t (k.given t) := by
  have hown := h.one_le_own hb hsource
  obtain ⟨name, v, live, hn, -⟩ := h.store.proxy
  have hdrop : Makes (Act.drop p) s.begun ()
      (s.world.store.modifyAll (s.begun.below p) Node.lowered) :=
    makes_discard (makes_release_reach (w := s.begun) hb.sound h.tolerant
      (h.store.upheld hb.sound hown) hn)
  have hreach : s.begun.below p = s.world.store.reach Layout.release [p, f] :=
    congrArg (s.world.store.reach Layout.release) (h.store.chain hb.sound.earlier)
  rw [hreach] at hdrop
  have hreaches := State.reaches_of_answers (plan_drop hsource) rfl
    (makes_map (makes_map hdrop fun _ => Value.null) fun v => (v, Slot.null))
  refine ⟨hreaches.world.isTolerant h.tolerant, ?_, ?_, ?_⟩
  · rw [hreaches.world.store]
    exact h.store.lowered hown
  · rw [hreaches.slots]
    exact Nat.le_zero.mp (h.unleaked ▸ Slots.leaks_without s.slots source p)
  · intro z
    rw [hreaches.world.store, Store.below?_modifyAll _ _ fun n => Entity.below?_lowered n.entity]
    exact h.unreferred z

/-- What a step that uses the proxy does to its references. -/
theorem step (hx : s.UsesProxy p x) (hproceeds : s.Proceeds x) :
    ∃ k', (s.step x).2.Fronts p f t k' ∧
      (k' = k ∨ 1 ≤ k.own ∧ (k' = k.taken t ∨ k' = k.given t)) := by
  cases hx with
  | clone hsource =>
    exact ⟨_, h.clone hb hsource hproceeds, Or.inr ⟨h.one_le_own hb hsource, Or.inl rfl⟩⟩
  | drop hsource =>
    exact ⟨_, h.drop hb hsource, Or.inr ⟨h.one_le_own hb hsource, Or.inr rfl⟩⟩
  | look hlooks =>
    obtain ⟨hquiet, hslots⟩ := hproceeds.of_looks hlooks
    have hstore : (s.step x).2.world.store = s.world.store := hquiet.store
    refine ⟨k, ⟨hquiet.isTolerant h.tolerant, ?_, ?_, ?_⟩, Or.inl rfl⟩
    · rw [hstore]
      exact h.store
    · rw [hslots]
      exact h.unleaked
    · rw [hstore]
      exact h.unreferred

end State.Fronts

/-- While handles to a proxy are cloned, given up and asked, its structure keeps what the proxy
owns. -/
theorem State.Fronts.after {xs : List Step} (h : s.Fronts p f t k)
    (hs : Reachable State.Proceeds s out) (hk : k.Sound t) (ht : Standing.IsEven t)
    (hxs : s.All (fun s x => s.UsesProxy p x ∧ s.Proceeds x) xs) :
    ∃ k' out', (s.after xs).Fronts p f t k' ∧ k'.Sound t ∧
      Reachable State.Proceeds (s.after xs) out' := by
  induction xs generalizing s out k with
  | nil => exact ⟨k, out, h, hk, hs⟩
  | cons x xs ih =>
    obtain ⟨⟨hx, hproceeds⟩, hxs⟩ := hxs
    have hb := (hs.undisturbed h.tolerant.not_isClosed).balanced
    obtain ⟨k', h', hcases⟩ := h.step hb hx hproceeds
    have hk' : k'.Sound t := by
      rcases hcases with rfl | ⟨hown, rfl | rfl⟩
      · exact hk
      · exact hk.taken ht hown
      · exact hk.given hown
    exact ih h' (hs.step x hproceeds) hk' hxs

section Receive

variable {source name label : String} {a : FarAnswers} (c : ProxyClass) (hb : Balanced s out)
  (ht : s.world.IsTolerant) (hsource : s.slots.find? source = some (.struct f))
  (hname : s.slots.find? name = none)
  (hf : s.world.store.get? f = some ⟨label, .sharedFar ⟨a, t, 1, false⟩, true⟩)
include hb ht hsource hname hf

theorem reaches_receive_far :
    s.Reaches (.shared (.receive c (some source) name)) (s.world.store.receiving name c f)
      (s.slots.add name (.handle s.world.store.size c.sharedInterface)) := by
  have hmade : Makes (SharedStep.requireShared f >>= fun _ => c.receive name f) s.begun
      s.world.store.size (s.world.store.receiving name c f) := by
    refine makes_yields_bind (yields_requireShared ⟨_, hf, rfl⟩ ⟨_, hf, rfl⟩) fun w₁ h₁ => ?_
    have hstore : w₁.store = s.world.store := h₁.store
    rw [← hstore] at hf ⊢
    exact c.makes_receive_far name (hstore ▸ hb.sound.linked) (h₁.isTolerant ht) hf
  exact State.reaches_of_makes (plan_receive hsource c name) rfl hname
    (makes_bind hmade fun w' h' =>
      makes_holding (fun o => .handle o c.sharedInterface) _ h'.store)

/-- A proxy that was just made of a structure has a handle, and nothing else refers to it. -/
theorem fronts_receive :
    (s.step (.shared (.receive c (some source) name))).2.Fronts s.world.store.size f t
      (.received t) := by
  have hreaches := reaches_receive_far c hb ht hsource hname hf
  refine ⟨hreaches.world.isTolerant ht, ?_, ?_, ?_⟩
  · rw [hreaches.world.store]
    exact Store.fronts_receiving hf name c
  · rw [hreaches.slots, Slots.leaks_add_handle]
    -- no slot holds what did not exist
    apply List.countP_eq_zero.mpr
    intro e he
    have hfits := hb.fit e he
    obtain ⟨taken, slot⟩ := e
    cases slot with
    | leaked y view =>
      intro heq
      cases beq_iff_eq.mp heq
      exact absurd hfits.lt_size (Nat.lt_irrefl _)
    | _ => exact Bool.false_ne_true
  · intro z
    rw [hreaches.world.store]
    exact Store.below?_receiving_ne hb.sound (Store.lt_size hf) name c z

end Receive

/-! ## How long the structure lasts -/

/-- After any steps that use a proxy, its structure is not freed as long as there is a handle, and
if it can be released it has no reference left when there is none. -/
def State.Outlasts (s : State) (f p : Id) (t : Structure) : Prop :=
  ∀ xs, s.All (fun s x => s.UsesProxy p x ∧ s.Proceeds x) xs →
    (1 ≤ (s.after xs).slots.handles p → (s.after xs).world.store.isFreed f = false ∧
      1 ≤ (s.after xs).world.store.references f) ∧
    (t.isSet Layout.release = true → (s.after xs).slots.handles p = 0 →
      (s.after xs).world.store.references f = 0)

theorem State.Fronts.isFreed (h : s.Fronts p f t k) : s.world.store.isFreed f = k.freed := by
  obtain ⟨label, a, hf⟩ := h.store.far
  rw [Store.isFreed, hf]
  rfl

theorem State.Fronts.outlasts (h : s.Fronts p f t k) (hs : Reachable State.Proceeds s out)
    (hk : k.Sound t) (ht : Standing.IsEven t) : s.Outlasts f p t := by
  intro xs hxs
  obtain ⟨k', out', h', hk', hs'⟩ := h.after hs hk ht hxs
  have hown := h'.own_eq (hs'.undisturbed h'.tolerant.not_isClosed).balanced
  obtain ⟨label, a, hf⟩ := h'.store.far
  rw [h'.isFreed, Store.references_eq hf, ← hown]
  refine ⟨fun hleft => ⟨?_, ?_⟩, fun hrelease hnone => ?_⟩
  · by_contra hfreed
    have hzero := (hk'.freed.mp (Bool.not_eq_false _ ▸ hfreed)).2
    omega
  · show 1 ≤ k'.references
    cases hrelease : t.isSet Layout.release with
    | true =>
      have hequal := hk'.equal hrelease
      omega
    | false => exact hk'.least hrelease
  · show k'.references = 0
    rw [hk'.equal hrelease, hnone]
    rfl

/-- A structure of the far side with a single reference is handed to a new proxy, whatever its size
and whichever of its members are null. It lasts as long as there are handles to the proxy exactly if
it is not released without being retained. -/
theorem structure_outlasts_proxy {source name label : String} {a : FarAnswers} (c : ProxyClass)
    (h : Reachable State.Proceeds s out) (ht : s.world.IsTolerant)
    (hsource : s.slots.find? source = some (.struct f)) (hname : s.slots.find? name = none)
    (hf : s.world.store.get? f = some ⟨label, .sharedFar ⟨a, t, 1, false⟩, true⟩) :
    let x := Step.shared (.receive c (some source) name)
    s.isDone x = true ∧
      (s.step x).2.slots = s.slots.add name (.handle s.world.store.size c.sharedInterface) ∧
      ((s.step x).2.Outlasts f s.world.store.size t ↔
        (t.isSet Layout.release = true → t.isSet Layout.addRef = true)) := by
  intro x
  have hb := (h.undisturbed ht.not_isClosed).balanced
  have hreaches := reaches_receive_far c hb ht hsource hname hf
  have hfronts := fronts_receive c hb ht hsource hname hf
  have hproceeds := (State.undisturbed_of_isDone hreaches.done).1
  obtain ⟨heven, hodd⟩ := Standing.received_cases t
  refine ⟨hreaches.done, hreaches.slots, fun houtlasts => ?_, fun hset =>
    hfronts.outlasts (h.step x hproceeds) (heven hset) hset⟩
  by_contra hset
  have hslot : (s.step x).2.slots.find? name =
      some (.handle s.world.store.size c.sharedInterface) := by
    rw [hreaches.slots, Slots.find?_add, if_pos rfl]
  have hhandle := Slots.one_le_handles hslot
  have hfreed := ((houtlasts [] trivial).1 hhandle).1
  change (s.step x).2.world.store.isFreed f = false at hfreed
  rw [hfronts.isFreed, hodd hset] at hfreed
  cases hfreed

/-- A structure of the far side that is too small and cannot be asked about references. -/
def curtailed : State :=
  (State.initial {} (some .default)).after
    [.create (.sharedFar ⟨3, 4, 1⟩ (some 8) ["has_one_ref", "has_at_least_one_ref"]) "f"]

/-- It lasts until the clone of the first handle is given up. -/
theorem structure_outlasts_proxy_curtailed :
    let s := (curtailed.step (.shared (.receive .child (some "f") "p"))).2
    (s.after [.handle (.clone "p" "q"), .handle (.drop "p")]).world.store.isFreed 0 = false ∧
      (s.after [.handle (.clone "p" "q"), .handle (.drop "p"),
        .handle (.drop "q")]).world.store.references 0 = 0 := by
  intro s
  have h : Reachable State.Undisturbed curtailed _ :=
    (Reachable.initial {} (some .default)).after _ rfl
  have hsource : curtailed.slots.find? "f" = some (.struct 0) := rfl
  have hname : curtailed.slots.find? "p" = none := rfl
  obtain ⟨-, -, hiff⟩ := structure_outlasts_proxy .child h.proceeds nofun hsource hname rfl
  have houtlasts := hiff.mpr fun _ => rfl
  have proceeds {s : State} {x : Step} (hdone : s.isDone x = true) : s.Proceeds x :=
    (State.undisturbed_of_isDone hdone).1
  have hkept := houtlasts [.handle (.clone "p" "q"), .handle (.drop "p")]
    ⟨⟨.clone rfl, proceeds rfl⟩, ⟨.drop rfl, proceeds rfl⟩, trivial⟩
  have hgone := houtlasts [.handle (.clone "p" "q"), .handle (.drop "p"), .handle (.drop "q")]
    ⟨⟨.clone rfl, proceeds rfl⟩, ⟨.drop rfl, proceeds rfl⟩, ⟨.drop rfl, proceeds rfl⟩, trivial⟩
  exact ⟨(hkept.1 (Nat.le_refl 1)).1, hgone.2 rfl rfl⟩

/-- A structure of the far side that can be released but not retained. -/
def unretained : State :=
  (State.initial {} (some .default)).after [.create (.sharedFar ⟨3, 4, 1⟩ none ["add_ref"]) "f"]

/-- Its only reference is given up as the proxy takes it over, so it is freed under the handle. -/
theorem not_structure_outlasts_proxy :
    ¬ ∀ s out, Reachable State.Proceeds s out → s.world.isShutdown = false →
      ∀ f t source name label a (c : ProxyClass), s.slots.find? source = some (.struct f) →
        s.slots.find? name = none →
        s.world.store.get? f = some ⟨label, .sharedFar ⟨a, t, 1, false⟩, true⟩ →
        (s.step (.shared (.receive c (some source) name))).2.Outlasts f s.world.store.size t := by
  intro h
  have hreachable : Reachable State.Undisturbed unretained _ :=
    (Reachable.initial {} (some .default)).after _ rfl
  have houtlasts := h unretained _ hreachable.proceeds rfl 0 _ "f" "p" _ _ .child rfl rfl rfl
  have hkept := ((houtlasts [] trivial).1 (Nat.le_refl 1)).1
  have hfreed : ((unretained.step (.shared (.receive .child (some "f") "p"))).2.after
      []).world.store.isFreed 0 = true := rfl
  exact absurd (hkept.symm.trans hfreed) Bool.false_ne_true

end ObjectBoundary.Session
