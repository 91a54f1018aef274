import ObjectBoundary.Proofs.Session.Chains
import ObjectBoundary.Proofs.Session.Towers

/-!
# What the question for a single reference tells

The question whether a reference is the only one is answered at the bottom of a chain; no count on
the way there is looked at. But counts do not decrease on the way down, so a bottom with a single
reference leaves each entity of the chain with one, and that one belongs to the entity above.

* `Store.RestsOnOne`: an entity with a reference and a bottom with a single one.
* `ends_ask_unique`: what an answer of yes tells about the chain.
* `State.Exclusive`: there is no other reference to an entity, nor to what lies below it.
* `answers_exclusive`: an answer of yes is sound.
* `not_answers_exclusive_cleared`: it takes the members that count references.
-/

namespace ObjectBoundary

/-! ## Bottoms with a single reference -/

namespace Store

variable {st : Store} {x y z : Id} {n : Node}

/-- An entity that exists refers to another one. -/
def RefersTo (st : Store) (z y : Id) : Prop :=
  ∃ n, st.get? z = some n ∧ n.live = true ∧ n.entity.below? = some y

/-- An entity has a reference, and the bottom of its chain has a single one. -/
def RestsOnOne (st : Store) (x : Id) : Prop :=
  1 ≤ st.references x ∧ ∃ b ∈ st.chain x, st.below? b = none ∧ st.references b = 1

/-- What this side counts has a reference as long as it exists. -/
theorem Sound.one_le_references {c : Count} (hs : st.Sound) (hn : st.get? x = some n)
    (hlive : n.live = true) (hc : n.entity.sharedCount? = some c) : 1 ≤ st.references x := by
  have hpos := ((hs.counted x n hn).fits hc).live_iff.mp hlive
  rw [references_eq hn, Entity.references_of_sharedCount? hc]
  omega

/-- What an entity of this side refers to rests on one reference only if the entity does. -/
theorem RestsOnOne.above {c : Count} (h : st.RestsOnOne y) (hs : st.Sound)
    (hn : st.get? x = some n) (hlive : n.live = true) (hc : n.entity.sharedCount? = some c)
    (hy : n.entity.below? = some y) : st.RestsOnOne x := by
  obtain ⟨-, b, hb, hbottom⟩ := h
  refine ⟨hs.one_le_references hn hlive hc, b, ?_, hbottom⟩
  rw [chain_of_below hs.earlier hn hy]
  exact List.mem_cons_of_mem x hb

theorem RestsOnOne.bottom (hs : st.Sound) (hn : st.get? x = some n) (hy : n.entity.below? = none)
    (href : st.references x = 1) : st.RestsOnOne x :=
  ⟨href.ge, x, mem_chain_self hs.earlier x, (below?_eq_some hn).trans hy, href⟩

/-- No entity of a chain has more references than the bottom. -/
theorem Sound.references_le_bottom (hs : st.Sound) (hx : 1 ≤ st.references x)
    (hout : ∀ y ∈ st.chain x, 0 ≤ st.outside y) {b : Id} (hb : b ∈ st.chain x)
    (hbottom : st.below? b = none) : ∀ y ∈ st.chain x, st.references y ≤ st.references b := by
  induction x using Nat.strongRecOn with
  | ind x ih =>
    have hleast := (hs.upheld_chain hx hout).2
    have hchain := chain_eq_cons hs.earlier x
    intro y hy
    cases hu : st.below? x with
    | none =>
      rw [hchain, hu, Option.elim_none, List.mem_singleton] at hb hy
      rw [hb, hy]
    | some u =>
      rw [hu, Option.elim_some] at hchain
      have hself : u ∈ st.chain x := by
        rw [hchain]
        exact List.mem_cons_of_mem x (mem_chain_self hs.earlier u)
      rw [hchain, List.mem_cons] at hb hy
      have hb' : b ∈ st.chain u := by
        rcases hb with rfl | hb
        · exact absurd (hbottom.symm.trans hu) nofun
        · exact hb
      rcases hy with rfl | hy
      · exact hleast b (hchain ▸ List.mem_cons_of_mem y hb')
      · refine ih u (hs.earlier x u hu) (hx.trans (hleast u hself)) ?_ hb' y hy
        intro z hz
        exact hout z (mem_chain_of_below hs.earlier hu z hz)

/-- So where the bottom has a single reference, each entity of the chain has. -/
theorem RestsOnOne.references_eq_one (h : st.RestsOnOne x) (hs : st.Sound)
    (hout : ∀ y ∈ st.chain x, 0 ≤ st.outside y) : ∀ y ∈ st.chain x, st.references y = 1 := by
  obtain ⟨hx, b, hb, hbottom, hone⟩ := h
  intro y hy
  have hle := hs.references_le_bottom hx hout hb hbottom y hy
  have hge := (hs.upheld_chain hx hout).2 y hy
  omega

/-- What lies in a chain beneath its top lies directly below an entity of the chain. -/
theorem exists_above (earlier : ∀ x y, st.below? x = some y → y < x) (hy : y ∈ st.chain x)
    (hne : y ≠ x) : ∃ z ∈ st.chain x, st.below? z = some y := by
  induction x using Nat.strongRecOn with
  | ind x ih =>
    rw [chain_eq_cons earlier, List.mem_cons] at hy
    rcases hy with rfl | hy
    · exact absurd rfl hne
    · cases hu : st.below? x with
      | none => rw [hu] at hy; cases hy
      | some u =>
        rw [hu, Option.elim_some] at hy
        by_cases heq : y = u
        · exact ⟨x, mem_chain_self earlier x, heq ▸ hu⟩
        · obtain ⟨z, hz, hbelow⟩ := ih u (earlier x u hu) hy heq
          exact ⟨z, mem_chain_of_below earlier hu z hz, hbelow⟩

/-- What refers to a shared entity owns at least one reference to it. -/
theorem RefersTo.one_le_backs {r : Role} (h : st.RefersTo z y) (hs : st.Sound)
    (hr : st.HasRole y r) (hshared : r = .sharedObject ∨ r = .sharedStructure) :
    ∃ n, st.get? z = some n ∧ 1 ≤ n.backs y := by
  obtain ⟨n, hn, hlive, hy⟩ := h
  have hrole := (hs.linked z n y hn hy).2.unique hr
  have hfits {c : Count} (hc : n.entity.sharedCount? = some c) : 0 < c.toNat :=
    ((hs.counted z n hn).fits hc).live_iff.mp hlive
  have hbacks := Node.backs_eq hlive y
  refine ⟨n, hn, ?_⟩
  obtain ⟨name, e, live⟩ := n
  cases e with
  | sharedWrapper v =>
    cases hy
    have hpos : 0 < v.count.toNat := hfits rfl
    rw [show (Entity.sharedWrapper v).backing? = some v.object from rfl, credit_self] at hbacks
    change (_ : Int) = (v.count.toNat : Int) at hbacks
    omega
  | sharedProxy p =>
    cases hy
    have hpos : 0 < p.count.toNat := hfits rfl
    rw [show (Entity.sharedProxy p).backing? = some p.target from rfl, credit_self] at hbacks
    change (_ : Int) = (p.count.toNat : Int) at hbacks
    omega
  | ownedWrapper v => rcases hshared with rfl | rfl <;> cases hrole
  | ownedProxy p => rcases hshared with rfl | rfl <;> cases hrole
  | _ => cases hy

end Store

/-! ## What an answer of yes tells -/

namespace Act

variable {w : World} {x : Id}

theorem truth_ne_zero {b : Bool} (h : truth b ≠ 0) : b = true := by
  rw [← truth_bne_zero b]
  exact bne_iff_ne.mpr h

theorem ends_askAlong_unique (hs : w.store.Sound) (x : Id) :
    Ends (askAlong .unique (w.store.chain x)) w (fun a _ => a ≠ 0 → w.store.RestsOnOne x)
      fun _ _ => True := by
  induction x using Nat.strongRecOn with
  | ind x ih =>
    rw [Store.chain_eq_cons hs.earlier]
    apply ends_entity_bind
    intro n hn hlive
    rw [Store.below?_eq_some hn]
    -- a layer of this side passes on the answer of the one below
    have layer {y : Id} {c : Count} (hc : n.entity.sharedCount? = some c)
        (hy : n.entity.below? = some y) (b : Int32) (h : b ≠ 0 → w.store.RestsOnOne y)
        (hyes : truth (b != 0) ≠ 0) : w.store.RestsOnOne x :=
      (h (bne_iff_ne.mp (truth_ne_zero hyes))).above hs hn hlive hc hy
    have below {y : Id} (hy : n.entity.below? = some y) :
        Ends (askAlong .unique (w.store.chain y)) w (fun a _ => a ≠ 0 → w.store.RestsOnOne y)
          fun _ _ => True := ih y (hs.linked x n y hn hy).1
    obtain ⟨name, e, live⟩ := n
    cases e with
    | sharedObject o =>
      apply ends_pure
      intro hyes
      apply Store.RestsOnOne.bottom hs hn rfl
      have hone := (Count.isOne_iff o.count).mp (truth_ne_zero hyes)
      rw [Store.references_eq hn]
      exact congrArg Nat.cast hone
    | sharedWrapper v =>
      exact ends_bind (below rfl) fun b _ h => ends_pure fun hyes => layer rfl rfl b h hyes
    | sharedProxy p =>
      refine ends_bind (P := fun b _ => b ≠ 0 → w.store.RestsOnOne p.target) ?_
        fun b _ h => ends_pure fun hyes => layer rfl rfl b h hyes
      exact ends_through (fun _ _ _ _ _ _ => below rfl) fun _ _ _ _ _ _ hzero => absurd rfl hzero
    | sharedFar f =>
      apply ends_modify_bind
      apply ends_pure
      intro hyes
      apply Store.RestsOnOne.bottom hs hn rfl
      rw [Store.references_eq hn]
      show f.references = 1
      by_contra hne
      apply hyes
      show (if decide (f.references = 1) = true then f.answers.truthy else 0) = 0
      rw [if_neg (by simpa using hne)]
    | _ => exact ends_refuse

theorem ends_ask_unique (hs : w.store.Sound) (x : Id) :
    Ends (ask .unique x) w (fun a _ => a ≠ 0 → w.store.RestsOnOne x) fun _ _ => True :=
  ends_get_bind (ends_askAlong_unique hs x)

/-- The member of a structure that answers the question answers for its receiver. -/
theorem ends_call_unique (hs : w.store.Sound) (hr : w.store.HasRole x .sharedStructure) :
    Ends (call x Layout.hasOneRef (some x)) w
      (fun a _ => ∀ b, a = .number b → b ≠ 0 → w.store.RestsOnOne x) fun _ _ => True := by
  have reply {act : Act Int32} (h : Ends act w (fun a _ => a ≠ 0 → w.store.RestsOnOne x)
      fun _ _ => True) :
      Ends (act >>= fun a => pure (Reply.number a)) w
        (fun a _ => ∀ b, a = .number b → b ≠ 0 → w.store.RestsOnOne x) fun _ _ => True := by
    refine ends_bind h fun a _ ha => ends_pure ?_
    intro b heq
    cases heq
    exact ha
  obtain ⟨m, hm, hrole⟩ := hr
  apply ends_entity_bind
  intro n hn hlive
  cases hm.symm.trans hn
  obtain ⟨t, ht⟩ := Entity.struct?_of_role hrole
  apply ends_ofOption_bind ht
  split
  · cases he : m.entity with
    | sharedWrapper v =>
      apply ends_contained
      apply reply
      refine ends_baseMember_cases (fun _ _ _ hzero => absurd rfl hzero) ?_
      intro y w' hq _ hy
      cases (Option.filter_eq_some_iff.mp hy).1
      have hask := ends_ask_unique (w := w') (hq.store ▸ hs) x
      rw [hq.store] at hask
      exact hask
    | sharedFar f =>
      apply ends_entity_bind
      intro k hk _
      cases hm.symm.trans hk
      rw [he]
      exact reply (ends_ask_unique hs x)
    | _ => rw [he] at hrole; cases hrole
  · exact ends_pure (fun _ => nofun)

end Act

theorem Layout.position_hasOneRef (c : SharedClass) :
    c.layout.position? "has_one_ref" = some hasOneRef := by
  cases c <;> rfl

theorem Entity.Formed.position_hasOneRef {e : Entity} {t : Structure} (h : e.Formed)
    (hr : e.role = .sharedStructure) (ht : e.struct? = some t) :
    t.layout.position? "has_one_ref" = some Layout.hasOneRef := by
  cases e with
  | sharedWrapper v =>
    cases ht
    rw [h]
    exact Layout.position_hasOneRef v.cls
  | sharedFar f =>
    cases ht
    rw [h]
    rfl
  | _ => cases hr

namespace Session

open Act

variable {s : State} {step : Step} {out : Ledger} {x y z : Id} {v : Value}

theorem ends_asTruth {act : Act Int32} {w : World} {R : Prop}
    (h : Ends act w (fun a _ => a ≠ 0 → R) fun _ _ => True) :
    Ends (asTruth act) w (fun v _ => v.isYes = true → R) fun _ _ => True :=
  ends_bind h fun _ _ ha => ends_pure fun hyes => ha (bne_iff_ne.mp hyes)

/-- However it is asked, an answer of yes tells the same. -/
theorem State.AsksReferences.ends_unique (hx : s.AsksReferences .unique step x)
    (hs : s.world.store.Sound) :
    ∃ act, step.plan s.slots = .ok (.answering act) ∧
      Ends act s.begun (fun v _ => v.isYes = true → s.world.store.RestsOnOne x)
        fun _ _ => True := by
  have hask : Ends (Act.ask .unique x) s.begun (fun a _ => a ≠ 0 → s.world.store.RestsOnOne x)
      fun _ _ => True := ends_ask_unique (w := s.begun) hs x
  cases hx with
  | @handle source _ view hsource =>
    refine ⟨asTruth (Act.ask .unique x), ?_, ends_asTruth hask⟩
    show (s.slots.handle source >>= _) = _
    rw [Slots.handle_of_find? hsource]
    rfl
  | @target source name o view p hsource hn =>
    refine ⟨_, plan_target hsource (.ask .unique), ?_⟩
    apply ends_entity_bind
    intro n hn' _
    cases hn.symm.trans hn'
    have hthrough : Ends (through p.target (questionPosition .unique) 0 (Act.ask .unique p.target))
        s.begun (fun a _ => a ≠ 0 → s.world.store.RestsOnOne p.target) fun _ _ => True :=
      ends_through (fun _ _ _ _ _ _ => hask) fun _ _ _ _ _ _ hzero => absurd rfl hzero
    refine ends_bind (P := fun b _ => b = true → s.world.store.RestsOnOne p.target) ?_
      fun _ _ h => ends_pure h
    exact ends_bind hthrough fun _ _ h => ends_pure fun hyes => h (bne_iff_ne.mp hyes)
  | @call source _ hsource hrole =>
    refine ⟨_, plan_call hsource _, ?_⟩
    apply ends_position_bind
    intro n t i hn ht hi
    obtain ⟨m, hm, hr⟩ := id hrole
    cases hm.symm.trans hn
    cases hi.symm.trans ((hs.formed x _ hn).position_hasOneRef hr ht)
    refine ends_bind (ends_call_unique (w := s.begun) hs hrole) fun a _ h => ends_pure ?_
    intro hyes
    cases a with
    | number b => exact h b rfl (bne_iff_ne.mp ((isYes_number b).symm.trans hyes))
    | absent => cases hyes
    | nothing => cases hyes

theorem State.AsksReferences.restsOnOne (hx : s.AsksReferences .unique step x)
    (hs : s.world.store.Sound) (hv : (s.step step).1.outcome = .done v) (hyes : v.isYes = true) :
    s.world.store.RestsOnOne x := by
  obtain ⟨act, hp, hends⟩ := hx.ends_unique hs
  have hproceeds : s.Proceeds step := by
    rw [State.Proceeds, hv]
    trivial
  obtain ⟨p', hp', -, hcases⟩ := State.proceeds_cases hproceeds
  cases hp.symm.trans hp'
  rcases hcases with ⟨value, slot, w', hact, hdone, -⟩ | ⟨failure, w', -, hunwound, -⟩
  · cases hv.symm.trans hdone
    have hanswers : Ends (Plan.answering act).act s.begun
        (fun r _ => r.1.isYes = true → s.world.store.RestsOnOne x) fun _ _ => True :=
      ends_bind hends fun _ _ h => ends_pure h
    exact ends_of_done hanswers hact hyes
  · cases hv.symm.trans hunwound

/-! ## The only reference -/

/-- There is one reference to an entity and one to each entity below it, and those below belong to
the entity above them: no slot and nobody on the far side has another, and nothing else that exists
refers there. -/
structure State.Exclusive (s : State) (out : Ledger) (x : Id) : Prop where
  references : ∀ y ∈ s.world.store.chain x, s.world.store.references y = 1
  top : s.slots.handles x + s.slots.leaks x + out x + s.world.store.wrapped x +
    s.world.store.proxied x = 1
  below : ∀ y ∈ s.world.store.chain x, y ≠ x →
    s.slots.handles y = 0 ∧ s.slots.leaks y = 0 ∧ out y = 0
  above : ∀ y ∈ s.world.store.chain x, y ≠ x → ∃ z ∈ s.world.store.chain x,
    ∀ u, s.world.store.RefersTo u y ↔ u = z

/-- The reference that an entity of a chain counts is owned by a slot, by the far side or by an
entity. -/
theorem Balanced.owners_of_single (h : Balanced s out) (hz : s.Intact out x)
    (hy : y ∈ s.world.store.chain x) (hone : s.world.store.references y = 1) :
    s.slots.handles y + s.slots.leaks y + out y + s.world.store.total (Node.backs y) = 1 := by
  have houtside := h.outside y (hz y hy).1
  rw [Store.outside_eq, hone, Slots.held_eq] at houtside
  push_cast at houtside
  omega

/-- What refers to an entity of a chain owns a reference to it. -/
theorem State.Intact.one_le_backs {u : Id} (hz : s.Intact out x) (h : Balanced s out)
    (href : 1 ≤ s.world.store.references x) (hy : y ∈ s.world.store.chain x)
    (hu : s.world.store.RefersTo u y) : ∃ n, s.world.store.get? u = some n ∧ 1 ≤ n.backs y := by
  obtain ⟨m, hm, -, hshared⟩ := hz.upheld h href y hy
  exact hu.one_le_backs h.sound ⟨m, hm, rfl⟩ (of_decide_eq_true hshared)

/-- Where the bottom of a chain has a single reference, each reference of the chain is the only
one. -/
theorem Balanced.exclusive (h : Balanced s out) (hz : s.Intact out x)
    (hone : s.world.store.RestsOnOne x) : s.Exclusive out x := by
  have hs := h.sound
  have hsingle := hone.references_eq_one hs (hz.outside_nonneg h)
  have hup := hz.upheld h hone.1
  have owners {y : Id} (hy : y ∈ s.world.store.chain x) :=
    h.owners_of_single hz hy (hsingle y hy)
  have owns {u y : Id} (hy : y ∈ s.world.store.chain x) (hu : s.world.store.RefersTo u y) :=
    hz.one_le_backs h hone.1 hy hu
  have lies_below {y : Id} (hy : y ∈ s.world.store.chain x) (hne : y ≠ x) :
      ∃ z ∈ s.world.store.chain x, s.world.store.RefersTo z y := by
    obtain ⟨z, hzmem, hbelow⟩ := Store.exists_above hs.earlier hy hne
    obtain ⟨n, hn, hlive, -⟩ := hup z hzmem
    exact ⟨z, hzmem, n, hn, hlive, (Store.below?_eq_some hn).symm.trans hbelow⟩
  refine ⟨hsingle, ?_, ?_, ?_⟩
  · have htop := owners (Store.mem_chain_self hs.earlier x)
    have hbacks := s.world.store.total_add (Node.wraps x) (Node.proxies x)
    change s.world.store.wrapped x + s.world.store.proxied x =
      s.world.store.total (Node.backs x) at hbacks
    omega
  · intro y hy hne
    obtain ⟨z, -, hrefers⟩ := lies_below hy hne
    obtain ⟨n, hn, hbacks⟩ := owns hy hrefers
    have hle := s.world.store.le_total (Node.backs y) hn
    have hy' := owners hy
    have hout := (hz y hy).2
    omega
  · intro y hy hne
    obtain ⟨z, hzmem, hrefers⟩ := lies_below hy hne
    refine ⟨z, hzmem, fun u => ⟨fun hu => ?_, fun heq => heq ▸ hrefers⟩⟩
    by_contra hother
    obtain ⟨n, hn, hbacks⟩ := owns hy hrefers
    obtain ⟨m, hm, hbacks'⟩ := owns hy hu
    have hle := s.world.store.add_le_total (Node.backs y) hm hn hother
    have hy' := owners hy
    have hout := (hz y hy).2
    omega

/-- If the question whether a reference is the only one is answered with yes, it is: whoever asks
holds the only reference to the entity, and each entity below it has no other reference than the
one from above. -/
theorem answers_exclusive (h : Reachable State.Undisturbed s out) (hz : s.Intact out x)
    (hx : s.AsksReferences .unique step x) (hv : (s.step step).1.outcome = .done v)
    (hyes : v.isYes = true) :
    s.Exclusive out x ∧
    (∀ source view, s.slots.find? source = some (.handle x view) →
      s.slots.handles x = 1 ∧ s.slots.leaks x = 0 ∧ out x = 0 ∧
        ∀ u, ¬ s.world.store.RefersTo u x) ∧
    (1 ≤ out x → s.slots.handles x = 0 ∧ s.slots.leaks x = 0 ∧ out x = 1 ∧
      ∀ u, ¬ s.world.store.RefersTo u x) := by
  have hbalanced := h.balanced
  have hone := hx.restsOnOne hbalanced.sound hv hyes
  have hself := Store.mem_chain_self hbalanced.sound.earlier x
  have hout := (hz x hself).2
  have howners := hbalanced.owners_of_single hz hself
    (hone.references_eq_one hbalanced.sound (hz.outside_nonneg hbalanced) x hself)
  have unrelated (hbacks : s.world.store.total (Node.backs x) = 0) (u : Id) :
      ¬ s.world.store.RefersTo u x := by
    intro hu
    obtain ⟨n, hn, hpos⟩ := hz.one_le_backs hbalanced hone.1 hself hu
    have hle := s.world.store.le_total (Node.backs x) hn
    omega
  refine ⟨hbalanced.exclusive hz hone, ?_, ?_⟩
  · intro source view hsource
    have hhandles : 1 ≤ s.slots.handles x := Slots.one_le_handles hsource
    exact ⟨by omega, by omega, by omega, unrelated (by omega)⟩
  · intro hpos
    exact ⟨by omega, by omega, by omega, unrelated (by omega)⟩

/-- The handle to the proxy of a wrapper of an object is the only reference. -/
theorem answers_exclusive_handedOn :
    let s := (State.initial {} (some .default)).after handedOn
    s.Exclusive (0 + (State.initial {} (some .default)).entries handedOn) 2 ∧
      s.slots.handles 2 = 1 ∧ ∀ u, ¬ s.world.store.RefersTo u 2 := by
  intro s
  have h : Reachable State.Undisturbed s _ :=
    (Reachable.initial {} (some .default)).after handedOn rfl
  have hchain : s.world.store.chain 2 = [2, 1, 0] := rfl
  have hz : s.Intact (0 + (State.initial {} (some .default)).entries handedOn) 2 := by
    rw [State.Intact, hchain]
    refine forall_mem_three ⟨?_, Int.le_refl 0⟩ ⟨?_, Int.le_refl 0⟩ ⟨?_, Int.le_refl 0⟩ <;>
      (rintro n ⟨⟩; rfl)
  have hv : (s.step (.handle (.ask .unique "p"))).1.outcome = .done (.flag true) := rfl
  obtain ⟨hexclusive, hhandle, -⟩ :=
    answers_exclusive h hz (.handle rfl) hv rfl
  obtain ⟨hone, -, -, hrefers⟩ := hhandle "p" .client rfl
  exact ⟨hexclusive, hone, hrefers⟩

/-- A clone of the handle to a proxy is counted by the proxy alone, if the wrapper below has no
`add_ref`. Either handle then passes for the only reference. -/
theorem not_answers_exclusive_cleared :
    ¬ ∀ s out, Reachable State.Undisturbed s out → ∀ x,
      (∀ y ∈ s.world.store.chain x, 0 ≤ out y ∧
        (s.world.store.wrapperTag? y = none → s.world.store.Accountable y)) →
      ∀ source view v, s.slots.find? source = some (.handle x view) →
        (s.step (.handle (.ask .unique source))).1.outcome = .done v → v.isYes = true →
        s.slots.handles x = 1 := by
  intro h
  have hreachable := (Reachable.initial {} (some .default)).after clonedAbove rfl
  have hchain : ((State.initial {} (some .default)).after clonedAbove).world.store.chain 2 =
      [2, 1, 0] := rfl
  have hv : (((State.initial {} (some .default)).after clonedAbove).step
      (.handle (.ask .unique "p"))).1.outcome = .done (.flag true) := rfl
  have hone := h _ _ hreachable 2 ?_ "p" _ _ rfl hv rfl
  · have htwo : ((State.initial {} (some .default)).after clonedAbove).slots.handles 2 = 2 := rfl
    rw [htwo] at hone
    exact absurd hone (by decide)
  · rw [hchain]
    refine forall_mem_three ⟨Int.le_refl 0, fun _ => ?_⟩ ⟨Int.le_refl 0, nofun⟩
      ⟨Int.le_refl 0, fun _ => ?_⟩ <;> (rintro n ⟨⟩; rfl)

end Session

end ObjectBoundary
