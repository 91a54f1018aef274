import ObjectBoundary.Proofs.Session.Balance

/-!
# Conservation of references

The count of an object is the number of references that handles, leaked references and live
wrappers own. The object is destroyed in the step in which the last of them is given up, and in
no other; so are wrappers and proxies when their own count comes to zero.

* `State.owned`: the references to an object.
* `State.destroys`: the step destroys an entity.
* `references_conserved`: the law.
-/

namespace ObjectBoundary

/-! ## Two kinds of references -/

namespace Store

variable {st : Store} {z : Id}

theorem HasRole.unique {r r' : Role} (h : st.HasRole z r) (h' : st.HasRole z r') : r = r' := by
  obtain ⟨n, hn, rfl⟩ := h
  obtain ⟨n', hn', rfl⟩ := h'
  cases hn.symm.trans hn'
  rfl

/-- Nothing but a wrapper refers to an object. -/
theorem Sound.proxied_eq_zero (hs : st.Sound) (hr : st.HasRole z .sharedObject) :
    st.proxied z = 0 := by
  apply (total_eq_zero_iff st _).mpr
  intro x n hn
  obtain ⟨name, e, live⟩ := n
  cases e with
  | sharedProxy p =>
    apply if_neg
    rintro ⟨-, rfl⟩
    have heq : Role.sharedStructure = .sharedObject := (hs.linked x _ _ hn rfl).2.unique hr
    cases heq
  | _ => rfl

/-- Nothing but a proxy refers to a structure. -/
theorem Sound.wrapped_eq_zero (hs : st.Sound) (hr : st.HasRole z .sharedStructure) :
    st.wrapped z = 0 := by
  refine (total_eq_zero_iff st _).mpr fun x n hn => ?_
  obtain ⟨name, e, live⟩ := n
  cases e with
  | sharedWrapper v =>
    refine if_neg ?_
    rintro ⟨-, rfl⟩
    have heq : Role.sharedObject = .sharedStructure := (hs.linked x _ _ hn rfl).2.unique hr
    cases heq
  | _ => rfl

/-- Objects and proxies hand on all their references. -/
theorem HasRole.accountable (h : st.HasRole z .sharedObject) : st.Accountable z := by
  intro n hn
  obtain ⟨n', hn', hr⟩ := h
  cases hn.symm.trans hn'
  cases hn : n.entity <;> first | rfl | (rw [hn] at hr; cases hr)

end Store

/-! ## Counts of this side -/

namespace Entity

variable {e e' : Entity} {c : Count}

theorem references_of_sharedCount? (h : e.sharedCount? = some c) : e.references = c.toNat := by
  cases e <;> cases h <;> rfl

theorem sharedCount?_of_role (h : e.role = .sharedObject) : ∃ c, e.sharedCount? = some c := by
  cases e <;> first | exact ⟨_, rfl⟩ | cases h

theorem Continues.isSome_sharedCount? (h : e.Continues e') :
    e'.sharedCount?.isSome = e.sharedCount?.isSome := by
  cases e <;> cases e' <;> first | rfl | contradiction

theorem Continues.sharedCount? (h : e.Continues e') (hc : e.sharedCount? = some c) :
    ∃ c', e'.sharedCount? = some c' := by
  rw [← Option.isSome_iff_exists, h.isSome_sharedCount?, hc]
  rfl

end Entity

namespace Node

variable {n : Node} {c : Count}

theorem Counted.fits (h : n.Counted) (hc : n.entity.sharedCount? = some c) : c.Fits n.live := by
  obtain ⟨name, e, live⟩ := n
  cases e <;> cases hc <;> exact h

theorem isFreed_eq (hc : n.entity.sharedCount? = some c) : n.isFreed = !n.live := by
  obtain ⟨name, e, live⟩ := n
  cases e <;> cases hc <;> rfl

/-- What this side counts is freed when its count is zero. -/
theorem Counted.isFreed_iff (h : n.Counted) (hc : n.entity.sharedCount? = some c) :
    n.isFreed = true ↔ c.toNat = 0 := by
  have hlive := (h.fits hc).live_iff
  rw [isFreed_eq hc, Bool.not_eq_true', ← Bool.not_eq_true, hlive]
  omega

/-- Giving a reference up frees an entity exactly if it was the last one. -/
theorem isFreed_lowered_iff (h : n.Counted) (hlive : n.live = true)
    (hs : n.entity.isShared = true) :
    n.lowered.isFreed = true ↔ n.isFreed = true ∨ n.lowered.entity.references = 0 := by
  have hcount := counted_lowered h hlive
  have of_count {c : Count} (hl : n.lowered.entity.sharedCount? = some c)
      (hf : n.isFreed = !n.live) :
      n.lowered.isFreed = true ↔ n.isFreed = true ∨ n.lowered.entity.references = 0 := by
    rw [hcount.isFreed_iff hl, hf, hlive, Entity.references_of_sharedCount? hl]
    simp
  obtain ⟨name, e, live⟩ := n
  cases e with
  | sharedObject o => exact of_count rfl rfl
  | sharedWrapper v => exact of_count rfl rfl
  | sharedProxy p => exact of_count rfl rfl
  | sharedFar f =>
    show (f.freed || f.references - 1 == 0) = true ↔ f.freed = true ∨ f.references - 1 = 0
    rw [Bool.or_eq_true, beq_iff_eq]
  | _ => cases hs

end Node

theorem Store.Sound.isFreed_iff {st : Store} {z : Id} {n : Node} {c : Count} (hs : st.Sound)
    (hn : st.get? z = some n) (hc : n.entity.sharedCount? = some c) :
    st.isFreed z = true ↔ c.toNat = 0 := by
  rw [isFreed, hn]
  exact (hs.counted z n hn).isFreed_iff hc

/-- This side counts the references to an entity, if there is one. -/
def Store.IsCounted (st : Store) (z : Id) : Prop :=
  ∀ n, st.get? z = some n → n.entity.sharedCount?.isSome = true

theorem Store.Continues.isCounted {st st' : Store} {z : Id} (h : st.Continues st')
    (hz : st'.IsCounted z) : st.IsCounted z := by
  intro n hn
  obtain ⟨n', hn', hc⟩ := h z n hn
  rw [← hc.entity.isSome_sharedCount?]
  exact hz n' hn'

/-- What this side counts stays freed. -/
theorem Store.Continues.isFreed {st st' : Store} {z : Id} (h : st.Continues st')
    (hz : st'.IsCounted z) (hf : st.isFreed z = true) : st'.isFreed z = true := by
  unfold Store.isFreed at hf
  rw [Option.any_eq_true] at hf
  obtain ⟨n, hn, hfreed⟩ := hf
  obtain ⟨n', hn', hc⟩ := h z n hn
  obtain ⟨c', hc'⟩ := Option.isSome_iff_exists.mp (hz n' hn')
  obtain ⟨c, hcount⟩ := Option.isSome_iff_exists.mp (h.isCounted hz n hn)
  rw [Node.isFreed_eq hcount, Bool.not_eq_true'] at hfreed
  rw [Store.isFreed, hn', Option.any_some, Node.isFreed_eq hc', Bool.not_eq_true',
    ← Bool.not_eq_true]
  intro hlive
  rw [hc.live hlive] at hfreed
  cases hfreed

/-- Where there is nothing but a local object, it stands until it is freed. -/
theorem Store.standing_eq {st : Store} {z : Id}
    (h : ∀ n, st.get? z = some n → ∃ v, n.entity = .sharedObject v) :
    st.standing z = if st.isFreed z then 0 else 1 := by
  rw [standing, isFreed]
  cases hn : st.get? z with
  | none => rfl
  | some n =>
    obtain ⟨v, hv⟩ := h n hn
    obtain ⟨name, e, live⟩ := n
    cases hv
    cases live <;> rfl

namespace Session

variable {s : State} {x : Step} {out : Ledger} {o z : Id} {n : Node} {c : Count}

theorem Balanced.held_eq_zero (h : Balanced s out)
    (hr : s.world.store.HasRole z .sharedStructure) : s.slots.held z = 0 := by
  apply List.countP_eq_zero.mpr
  intro e he hz
  have hfits := h.fit e he
  rw [decide_eq_true_eq] at hz
  rcases e with ⟨name, _ | ⟨y, view⟩ | ⟨y, view⟩ | _ | _ | _ | _⟩ <;> cases hz
  · exact absurd (hr.unique hfits) (by decide)
  · exact absurd (hr.unique hfits) (by decide)

theorem Balanced.out_eq_zero (h : Balanced s out)
    (hr : s.world.store.HasRole z .sharedObject) : out z = 0 := by
  by_contra hne
  exact absurd (hr.unique (h.entered z hne)) (by decide)

/-- The references to an object that handles, leaked references and live wrappers own. -/
def State.owned (s : State) (o : Id) : Nat :=
  s.slots.handles o + s.slots.leaks o + s.world.store.wrapped o

theorem Balanced.references_object (h : Balanced s out)
    (hr : s.world.store.HasRole o .sharedObject) : s.world.store.references o = s.owned o := by
  have houtside := h.outside o hr.accountable
  rw [h.out_eq_zero hr, Store.outside, h.sound.proxied_eq_zero hr, Slots.held_eq] at houtside
  unfold State.owned
  push_cast at houtside ⊢
  omega

theorem Balanced.references_structure (h : Balanced s out)
    (hr : s.world.store.HasRole z .sharedStructure) (ha : s.world.store.Accountable z) :
    s.world.store.references z = out z + s.world.store.proxied z := by
  have houtside := h.outside z ha
  rw [h.held_eq_zero hr, Store.outside, h.sound.wrapped_eq_zero hr] at houtside
  push_cast at houtside
  omega

theorem Balanced.count_object (h : Balanced s out) (hn : s.world.store.get? o = some n)
    (hr : n.entity.role = .sharedObject) (hc : n.entity.sharedCount? = some c) :
    c.toNat = s.owned o := by
  have href := h.references_object ⟨n, hn, hr⟩
  rw [Store.references, hn] at href
  have hcount := Entity.references_of_sharedCount? hc
  change n.entity.references = _ at href
  omega

/-! ## What a step destroys -/

/-- Whether an entity that counts references is freed in a step. -/
def State.destroys (s : State) (x : Step) (z : Id) : Bool :=
  !s.world.store.isFreed z && (s.step x).2.world.store.isFreed z

/-- What this side counts is freed when its count comes to zero, and stays so. -/
theorem Moved.destroys_iff {δ : Ledger} (h : Moved s x δ) (hs : s.world.store.Sound)
    (hn : s.world.store.get? z = some n) (hc : n.entity.sharedCount? = some c) :
    ∃ n' c', (s.step x).2.world.store.get? z = some n' ∧ n'.entity.sharedCount? = some c' ∧
      (s.destroys x z = true ↔ 1 ≤ c.toNat ∧ c'.toNat = 0) ∧ (c.toNat = 0 → c'.toNat = 0) := by
  obtain ⟨n', hn', hcont⟩ := h.turns.continues z n hn
  obtain ⟨c', hc'⟩ := hcont.entity.sharedCount? hc
  have hbefore := hs.isFreed_iff hn hc
  have hafter := h.turns.sound.isFreed_iff hn' hc'
  refine ⟨n', c', hn', hc', ?_, ?_⟩
  · rw [State.destroys, Bool.and_eq_true, hafter, Bool.not_eq_true', ← Bool.not_eq_true, hbefore]
    omega
  · intro hzero
    rw [← hafter]
    refine Store.Continues.isFreed h.turns.continues (fun m hm => ?_) (hbefore.mpr hzero)
    cases hn'.symm.trans hm
    rw [hc']
    rfl

/-- The log tells of each local object that a step destroys, once. -/
theorem Moved.drops_eq {δ : Ledger} (h : Moved s x δ) {v : SharedObject}
    (hn : (s.step x).2.world.store.get? o = some n) (hv : n.entity = .sharedObject v) :
    (s.step x).2.world.drops o = if s.destroys x o then 1 else 0 := by
  have hlocal : ∀ m, s.world.store.get? o = some m → ∃ u, m.entity = .sharedObject u := by
    intro m hm
    obtain ⟨n', hn', hcont⟩ := h.turns.continues o m hm
    cases hn.symm.trans hn'
    have hentity := hcont.entity
    rw [hv] at hentity
    cases hm : m.entity <;> rw [hm] at hentity <;> first | exact ⟨_, rfl⟩ | contradiction
  have hfreed : s.world.store.isFreed o = true → (s.step x).2.world.store.isFreed o = true := by
    apply Store.Continues.isFreed h.turns.continues
    intro m hm
    cases hn.symm.trans hm
    rw [hv]
    rfl
  have hafter : (s.step x).2.world.store.standing o = _ := Store.standing_eq fun n' hn' =>
    ⟨v, by cases hn.symm.trans hn'; exact hv⟩
  have hbefore : s.world.store.standing o = _ := Store.standing_eq hlocal
  have hdrops : (s.step x).2.world.drops o + (s.step x).2.world.store.standing o =
      0 + s.world.store.standing o := h.turns.drops o
  rw [hafter, hbefore] at hdrops
  unfold State.destroys
  cases hb : s.world.store.isFreed o with
  | true =>
    rw [hb, hfreed hb] at hdrops
    exact hdrops
  | false =>
    rw [hb] at hdrops
    cases ha : (s.step x).2.world.store.isFreed o with
    | true =>
      rw [ha] at hdrops
      exact hdrops
    | false =>
      rw [ha] at hdrops
      exact Nat.add_right_cancel hdrops

/-! ## Conservation -/

/-- The count of an object is the number of references that handles, leaked references and live
wrappers own. Each step destroys the objects of which the last reference goes, and it frees the
wrappers and proxies of which the own count comes to zero; nothing comes back. -/
theorem references_conserved (h : Reachable State.Undisturbed s out) :
    (∀ o n c, s.world.store.get? o = some n → n.entity.role = .sharedObject →
      n.entity.sharedCount? = some c → c.toNat = s.owned o) ∧
    (∀ z n c, s.world.store.get? z = some n → n.entity.sharedCount? = some c →
      (n.live = true ↔ 1 ≤ c.toNat)) ∧
    ∀ x, s.Undisturbed x →
      (∀ o, s.world.store.HasRole o .sharedObject →
        (s.destroys x o = true ↔ 1 ≤ s.owned o ∧ (s.step x).2.owned o = 0) ∧
        (s.owned o = 0 → (s.step x).2.owned o = 0)) ∧
      (∀ z n c, s.world.store.get? z = some n → n.entity.sharedCount? = some c →
        ∃ n' c', (s.step x).2.world.store.get? z = some n' ∧ n'.entity.sharedCount? = some c' ∧
          (s.destroys x z = true ↔ 1 ≤ c.toNat ∧ c'.toNat = 0) ∧
          (c.toNat = 0 → c'.toNat = 0)) ∧
      ∀ o n v, (s.step x).2.world.store.get? o = some n → n.entity = .sharedObject v →
        (s.step x).2.world.drops o = if s.destroys x o then 1 else 0 := by
  have hbalanced := h.balanced
  refine ⟨fun o n c hn hr hc => hbalanced.count_object hn hr hc, fun z n c hn hc => ?_,
    fun x hx => ?_⟩
  · exact ((hbalanced.sound.counted z n hn).fits hc).live_iff
  · obtain ⟨δ, hmoved⟩ := hbalanced.moved hx
    refine ⟨fun o hr => ?_, fun z n c hn hc => hmoved.destroys_iff hbalanced.sound hn hc,
      fun o n v hn hv => hmoved.drops_eq hn hv⟩
    obtain ⟨n, hn, hrole⟩ := hr
    obtain ⟨c, hc⟩ := Entity.sharedCount?_of_role hrole
    obtain ⟨n', c', hn', hc', hdestroys, hstays⟩ := hmoved.destroys_iff hbalanced.sound hn hc
    obtain ⟨_, hn'', hrole'⟩ := hmoved.turns.continues.hasRole ⟨n, hn, hrole⟩
    cases hn'.symm.trans hn''
    rw [hbalanced.count_object hn hrole hc, (hbalanced.step hx).count_object hn' hrole' hc']
      at hdestroys hstays
    exact ⟨hdestroys, hstays⟩

/-- An object that only its wrapper still owns goes with the last reference to the wrapper. -/
theorem references_conserved_wrapped :
    let s := (State.initial {} (some .default)).after
      [.create (.sharedObject ⟨.client 7, none⟩) "a", .handle (.clone "a" "b"),
        .shared (.wrap .client (some "a") "w"), .handle (.drop "b")]
    let release : Step := .struct (.call "w" "release" .itself)
    s.owned 0 = 1 ∧ s.destroys release 0 = true ∧ s.destroys release 1 = true ∧
      (s.step release).2.world.drops 0 = 1 := by
  intro s release
  have h : Reachable State.Undisturbed s _ := (Reachable.initial {} (some .default)).after _ rfl
  obtain ⟨hcount, -, hstep⟩ := references_conserved h
  obtain ⟨hobjects, hours, hdrops⟩ := hstep release (State.undisturbed_of_isDone rfl)
  have howned : s.owned 0 = 1 := (hcount 0 _ _ rfl rfl rfl).symm
  have hdestroys : s.destroys release 0 = true :=
    (hobjects 0 ⟨_, rfl, rfl⟩).1.mpr ⟨howned.ge, rfl⟩
  refine ⟨howned, hdestroys, ?_, ?_⟩
  · obtain ⟨n', c', hn', hc', hiff, -⟩ := hours 1 _ _ rfl rfl
    cases hn'
    cases hc'
    exact hiff.mpr ⟨Nat.le_refl 1, rfl⟩
  · rw [hdrops 0 _ _ rfl rfl, hdestroys]
    rfl

end Session

end ObjectBoundary
