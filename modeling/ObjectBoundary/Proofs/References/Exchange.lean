import ObjectBoundary.Proofs.Makes
import ObjectBoundary.Proofs.References.Creation
import ObjectBoundary.Proofs.References.Whole

/-!
# Exchanging references

Where all of a chain exists and has the members that count references, taking a reference and
giving it up again leaves every entity as it was. So all that is left of making a wrapper or proxy
is the new entity, and all that is left of handing its object out is that it has one reference
less.

* `Store.Firm`: entities along which references are handed all the way.
* `Store.Ready`: a chain of such entities whose counts can rise.
* `Store.Ready.lowered_raised`: what is taken and given up cancels out.
* `makes_retain_reach`, `makes_release_reach`: what becomes of the counts in reach.
* `makes_retain`, `makes_release`: what becomes of the counts of such a chain.
* `makes_introduce`: a new entity gets its first reference.
-/

namespace ObjectBoundary

open Act

/-! ## One entity -/

theorem Count.pred_succ (c : Count) : c.succ.pred = c :=
  congrArg Count.mk (UInt64.add_sub_cancel c.word 1)

/-- One reference more and then one less. -/
theorem Node.lowered_raised {n : Node} (hc : n.Counted) (hlive : n.live = true)
    (hr : n.entity.canRise = true) : n.raised.lowered = n := by
  have not_last {c : Count} (hfits : c.Fits n.live) (hfull : c.isFull = false) :
      c.succ.isOne = false := by
    have hpos := hfits.live_iff.mp hlive
    have hsucc := Count.toNat_succ_of_not_full hfull
    by_contra hone
    have := (Count.isOne_iff c.succ).mp (Bool.not_eq_false _ ▸ hone)
    omega
  have same {c : Count} {e : Count → Entity} (hfits : c.Fits n.live) (hfull : c.isFull = false) :
      (⟨n.name, e c.succ.pred, n.live && !c.succ.isOne⟩ : Node) = ⟨n.name, e c, n.live⟩ := by
    rw [Count.pred_succ, not_last hfits hfull, Bool.not_false, Bool.and_true]
  obtain ⟨name, e, live⟩ := n
  cases e with
  | sharedObject o =>
    exact same (e := fun c => .sharedObject { o with count := c }) hc
      (Entity.not_full_of_canRise hr rfl)
  | sharedWrapper v =>
    exact same (e := fun c => .sharedWrapper { v with count := c }) hc
      (Entity.not_full_of_canRise hr rfl)
  | sharedProxy p =>
    exact same (e := fun c => .sharedProxy { p with count := c }) hc
      (Entity.not_full_of_canRise hr rfl)
  | sharedFar f =>
    have href : f.references + 1 - 1 = f.references := by omega
    have hfreed : (f.freed || f.references == 0) = f.freed := by
      by_cases hzero : f.references = 0
      · rw [hc.2 (Int.le_of_eq hzero), Bool.true_or]
      · rw [beq_eq_false_iff_ne.mpr hzero, Bool.or_false]
    simp only [Node.raised, Node.lowered, Entity.raised, Entity.lowered, Entity.isLast,
      Entity.sharedCount?, Option.any_none, Bool.not_false, Bool.and_true, href, hfreed]
  | _ =>
    show Node.mk name _ (live && !false) = _
    rw [Bool.not_false, Bool.and_true]
    rfl

theorem Node.isAccountable_raised (n : Node) :
    n.raised.entity.isAccountable = n.entity.isAccountable := by
  obtain ⟨name, e, live⟩ := n
  cases e <;> rfl

/-! ## Firm chains -/

namespace Store

variable {st st' : Store} {x y : Id} {n : Node} {xs ys : List Id}

/-- Entities that exist and along which references are handed on. -/
structure Firm (st : Store) (ys : List Id) : Prop where
  upheld : st.Upheld ys
  accountable : ∀ y ∈ ys, st.Accountable y

/-- A chain along which a reference can be taken and given up. -/
structure Ready (st : Store) (x : Id) : Prop extends Firm st (st.chain x) where
  canRise : st.CanRise (st.chain x)

theorem Firm.congr (h : st.Firm ys) (hsame : ∀ y ∈ ys, st'.get? y = st.get? y) : st'.Firm ys := by
  refine ⟨fun y hy => ?_, fun y hy n hn => ?_⟩
  · rw [hsame y hy]
    exact h.upheld y hy
  · exact h.accountable y hy n ((hsame y hy).symm.trans hn)

/-- A structure that belongs to a firm chain has the members that count references. -/
theorem Firm.exists_struct (h : st.Firm ys) (hx : x ∈ ys) (hr : st.HasRole x .sharedStructure) :
    ∃ n t, st.get? x = some n ∧ n.live = true ∧ n.entity.struct? = some t ∧ t.counts = true := by
  obtain ⟨n, hn, hlive, -⟩ := h.upheld x hx
  obtain ⟨m, hm, hrole⟩ := hr
  cases hn.symm.trans hm
  have hcounts := h.accountable x hx n hn
  obtain ⟨name, e, live⟩ := n
  cases e <;> first | exact ⟨_, _, hn, hlive, rfl, hcounts⟩ | cases hrole

theorem Firm.raised (h : st.Firm ys) (hxs : xs.Nodup) : (st.modifyAll xs Node.raised).Firm ys := by
  refine ⟨h.upheld.raised xs, fun y hy n hn => ?_⟩
  rw [get?_modifyAll hxs] at hn
  split at hn
  · obtain ⟨m, hm, rfl⟩ := Option.map_eq_some_iff.mp hn
    exact m.isAccountable_raised.trans (h.accountable y hy m hm)
  · exact h.accountable y hy n hn

/-! ## Ready chains -/

namespace Ready

theorem lt_size (h : st.Ready x) (hl : st.Linked) : x < st.size := by
  obtain ⟨n, hn, -⟩ := h.upheld x (mem_chain_self hl.earlier x)
  exact Store.lt_size hn

/-- What is added later does not matter. -/
theorem keeps (h : st.Ready x) (hk : st.Keeps st') (hl : st.Linked) (hl' : st'.Linked) :
    st'.Ready x := by
  have hchain := hk.chain hl hl' (h.lt_size hl)
  have hsame : ∀ y ∈ st.chain x, st'.get? y = st.get? y := fun y hy =>
    hk y (Nat.lt_of_le_of_lt (chain_le hl.earlier x y hy) (h.lt_size hl))
  refine ⟨hchain ▸ h.toFirm.congr hsame, ?_⟩
  intro y hy n hn
  rw [hchain] at hy
  exact h.canRise y hy n ((hsame y hy).symm.trans hn)

theorem below (h : st.Ready x) (hl : st.Linked) (hn : st.get? x = some n)
    (hy : n.entity.below? = some y) : st.Ready y := by
  have hmem := mem_chain_of_below hl.earlier ((below?_eq_some hn).trans hy)
  exact ⟨⟨h.upheld.mono hmem, fun z hz => h.accountable z (hmem z hz)⟩,
    fun z hz => h.canRise z (hmem z hz)⟩

/-- A new entity on top of a chain. -/
theorem push (h : st.Ready y) (hl : st.Linked) (hl' : (st.push n).Linked)
    (hy : n.entity.below? = some y) (hlive : n.live = true) (hshared : n.entity.isShared = true)
    (hacc : n.entity.isAccountable = true) (hr : n.entity.canRise = true) :
    (st.push n).Ready st.size := by
  have hn := get?_push_size st n
  have hchain := chain_of_below hl'.earlier hn hy
  have hbelow := h.keeps (keeps_push st n) hl hl'
  refine ⟨⟨hchain ▸ upheld_cons hn hlive hshared hbelow.upheld, ?_⟩,
    hchain ▸ canRise_cons hn hr hbelow.canRise⟩
  intro z hz m hm
  rw [hchain] at hz
  rcases List.mem_cons.mp hz with rfl | hz
  · cases hn.symm.trans hm
    exact hacc
  · exact hbelow.accountable z hz m hm

theorem sound_raised (h : st.Ready x) (hs : st.Sound) :
    (st.modifyAll (st.chain x) Node.raised).Sound ∧
      st.Continues (st.modifyAll (st.chain x) Node.raised) := by
  have hreach : st.reach Layout.addRef (st.chain x) = st.chain x :=
    Linked.reach_eq_chain hs.linked (Or.inl rfl) h.upheld h.accountable
  have hshift := hs.allShift_raised h.upheld h.canRise
  have hsound := outside_modifyAll hs (Or.inl rfl) x (hreach.symm ▸ hshift)
  rw [hreach] at hsound
  exact ⟨hsound.1, hsound.2.1⟩

/-- What is taken and given up cancels out. -/
theorem lowered_raised (h : st.Ready x) (hs : st.Sound) :
    (st.modifyAll (st.chain x) Node.raised).modifyAll (st.chain x) Node.lowered = st := by
  have hnodup := chain_nodup hs.earlier x
  refine ext_get? fun y => ?_
  rw [get?_modifyAll hnodup, get?_modifyAll hnodup]
  by_cases hy : y ∈ st.chain x
  · obtain ⟨n, hn, hlive, -⟩ := h.upheld y hy
    rw [if_pos hy, if_pos hy, hn]
    exact congrArg some (Node.lowered_raised (hs.counted y n hn) hlive (h.canRise y hy n hn))
  · rw [if_neg hy, if_neg hy]

/-- After the object of a wrapper got a reference, one to the wrapper can be given up, and what is
left of both is that the wrapper has one less. The same goes for the structure of a proxy. -/
theorem lowered_above (h : st.Ready x) (hs : st.Sound) (hn : st.get? x = some n)
    (hy : n.entity.below? = some y) :
    let st' := st.modifyAll (st.chain y) Node.raised
    st'.Sound ∧ st'.Firm (st'.chain x) ∧
      st'.modifyAll (st'.chain x) Node.lowered = st.modify x Node.lowered := by
  have hbelow := h.below hs.linked hn hy
  have hchain : (st.modifyAll (st.chain y) Node.raised).chain x = st.chain x :=
    chain_modifyAll st _ (fun m => Entity.below?_raised m.entity) x
  refine ⟨(hbelow.sound_raised hs).1, ?_, ?_⟩
  · rw [hchain]
    exact h.toFirm.raised (chain_nodup hs.earlier y)
  · rw [hchain, chain_of_below hs.earlier hn hy, modifyAll_cons, hbelow.lowered_raised hs]

/-- After a new wrapper or proxy got its first reference, one to what it refers to can be given
up, and what is left of both is the new entity. -/
theorem lowered_push (h : st.Ready y) (hs : st.Sound) (hf : n.IsFresh st y) :
    let st' := (st.modifyAll (st.chain y) Node.raised).push n.raised
    st'.Sound ∧ st'.HasRole y n.entity.linkRole ∧ st'.Firm (st'.chain y) ∧
      st'.modifyAll (st'.chain y) Node.lowered = st.push n.raised := by
  obtain ⟨hsound, hcont⟩ := h.sound_raised hs
  have hsize : (st.modifyAll (st.chain y) Node.raised).size = st.size := size_modifyAll _ _ _
  have hlt : ∀ z ∈ st.chain y, z < (st.modifyAll (st.chain y) Node.raised).size := fun z hz =>
    hsize.symm ▸ Nat.lt_of_le_of_lt (chain_le hs.earlier y z hz) hf.linked.lt_size
  have hpush : ((st.modifyAll (st.chain y) Node.raised).push n.raised).Sound := by
    refine sound_push hsound hf.counted_raised ((Entity.continues_raised _).formed hf.formed) ?_
    intro z hz
    cases hf.below?.symm.trans ((Entity.below?_raised n.entity).symm.trans hz)
    rw [show n.raised.entity.linkRole = n.entity.linkRole from
      (Entity.continues_raised n.entity).linkRole]
    exact hcont.hasRole hf.linked
  have hchain : ((st.modifyAll (st.chain y) Node.raised).push n.raised).chain y = st.chain y := by
    rw [(keeps_push _ n.raised).chain hsound.linked hpush.linked
      (hlt y (mem_chain_self hs.earlier y))]
    exact chain_modifyAll st _ (fun m => Entity.below?_raised m.entity) y
  refine ⟨hpush, (hcont.trans (continues_push _ _)).hasRole hf.linked, ?_, ?_⟩
  · rw [hchain]
    refine (h.toFirm.raised (chain_nodup hs.earlier y)).congr fun z hz => ?_
    exact get?_push_of_lt (hlt z hz) n.raised
  · rw [hchain, modifyAll_push hlt, h.lowered_raised hs]

end Ready

end Store

/-! ## Taking and giving up -/

namespace Act

variable {w : World} {x y : Id} {n : Node}

/-- Where nothing is missing from a chain and no count of it is at the limit, a reference is taken
as far as it reaches. -/
theorem makes_retain_reach (hl : w.store.Linked) (hup : w.store.Upheld (w.store.chain x))
    (hr : w.store.CanRise (w.store.chain x)) :
    Makes (retain x) w () (w.store.modifyAll (w.above x) Node.raised) := by
  refine makes_of_does (U := fun _ _ => False) ((runs_retain hl hr).does fun hnot => hnot hup) ?_
  refine ends_mono (ends_retain hl.earlier x) (fun _ w' h => ⟨rfl, ?_⟩) fun _ _ hu => hu
  exact ⟨h.adjusted.store, h.adjusted.isShutdown, h.adjusted.inForce⟩

theorem makes_retain (hl : w.store.Linked) (h : w.store.Ready x) :
    Makes (retain x) w () (w.store.modifyAll (w.store.chain x) Node.raised) := by
  have hreach : w.above x = w.store.chain x :=
    Store.Linked.reach_eq_chain hl (Or.inl rfl) h.upheld h.accountable
  exact hreach ▸ makes_retain_reach hl h.upheld h.canRise

/-- Where nothing is missing from a chain, a reference is given up as far as it reaches. -/
theorem makes_release_reach (hs : w.store.Sound) (ht : w.IsTolerant)
    (hup : w.store.Upheld (w.store.chain x)) (hn : w.store.get? x = some n) :
    Makes (release x) w n.entity.releaseAnswer (w.store.modifyAll (w.below x) Node.lowered) := by
  refine makes_of_does (does_release hs ht hup) (ends_mono (ends_release hs x) ?_ fun _ _ hu => hu)
  intro a w' hpost
  obtain ⟨h, ha⟩ := hpost
  exact ⟨ha n hn, h.adjusted.store, h.adjusted.isShutdown, h.adjusted.inForce⟩

section Release

variable (hs : w.store.Sound) (ht : w.IsTolerant) (h : w.store.Firm (w.store.chain x))
include hs ht h

theorem makes_release (hn : w.store.get? x = some n) : Makes (release x) w n.entity.releaseAnswer
    (w.store.modifyAll (w.store.chain x) Node.lowered) := by
  have hreach : w.below x = w.store.chain x :=
    Store.Linked.reach_eq_chain hs.linked (Or.inr rfl) h.upheld h.accountable
  exact hreach ▸ makes_release_reach hs ht h.upheld hn

theorem makes_drop : Makes (drop x) w () (w.store.modifyAll (w.store.chain x) Node.lowered) := by
  obtain ⟨n, hn, -⟩ := h.upheld x (Store.mem_chain_self hs.earlier x)
  exact makes_discard (makes_release hs ht h hn)

theorem makes_release_through (hr : w.store.HasRole x .sharedStructure) :
    Makes (discard (through x Layout.release 0 (release x))) w ()
      (w.store.modifyAll (w.store.chain x) Node.lowered) := by
  obtain ⟨n, t, hn, hlive, hstruct, hcounts⟩ :=
    h.exists_struct (Store.mem_chain_self hs.earlier x) hr
  exact makes_discard (makes_through hn hlive hstruct
    (Structure.isSet_of_counts hcounts (Or.inr rfl)) (makes_release hs ht h hn))

end Release

theorem makes_retain_through (hl : w.store.Linked) (h : w.store.Ready x)
    (hr : w.store.HasRole x .sharedStructure) :
    Makes (through x Layout.addRef () (retain x)) w ()
      (w.store.modifyAll (w.store.chain x) Node.raised) := by
  obtain ⟨n, t, hn, hlive, hstruct, hcounts⟩ :=
    h.exists_struct (Store.mem_chain_self hl.earlier x) hr
  exact makes_through hn hlive hstruct (Structure.isSet_of_counts hcounts (Or.inl rfl))
    (makes_retain hl h)

/-- A new wrapper or proxy gets its first reference, which takes one to what it refers to. -/
theorem makes_introduce {β : Type} {b : β} {st : Store} {name : String} {e : Entity}
    {f : Id → Act β} (hl : w.store.Linked) (h : w.store.Ready y)
    (hf : Node.IsFresh ⟨name, e, true⟩ w.store y) (hacc : e.isAccountable = true)
    (k : ∀ w', w.Becomes w'
      ((w.store.modifyAll (w.store.chain y) Node.raised).push (Node.raised ⟨name, e, true⟩)) →
        Makes (f w.store.size) w' b st) :
    Makes
      (do
        let x ← create name e
        retain x
        f x)
      w b st := by
  let w₁ : World := { w with store := w.store.push ⟨name, e, true⟩ }
  have hcreate : Makes (create name e) w w.store.size w₁.store :=
    fun phase => ⟨w₁, rfl, rfl, rfl, rfl⟩
  have hl₁ := hf.linked_push hl
  have hshared : e.isShared = true := by
    have hc := hf.count
    cases e <;> first | rfl | cases hc
  have hrise : e.canRise = true := by
    rw [Entity.canRise, hf.count]
    rfl
  have hready : (w.store.push ⟨name, e, true⟩).Ready w.store.size :=
    h.push hl hl₁ hf.below? rfl hshared hacc hrise
  have hstore : (w.store.push ⟨name, e, true⟩).modifyAll
      ((w.store.push ⟨name, e, true⟩).chain w.store.size) Node.raised =
        (w.store.modifyAll (w.store.chain y) Node.raised).push (Node.raised ⟨name, e, true⟩) := by
    rw [hf.chain_push hl, Store.modifyAll_cons, Store.modifyAll_push fun z hz =>
      Nat.lt_of_le_of_lt (Store.chain_le hl.earlier y z hz) hf.linked.lt_size]
    have := Store.modify_push_size (w.store.modifyAll (w.store.chain y) Node.raised)
      ⟨name, e, true⟩ Node.raised
    rwa [Store.size_modifyAll] at this
  refine makes_bind hcreate fun w₂ h₂ => ?_
  have hretain : Makes (retain w.store.size) w₂ () _ :=
    makes_retain (h₂.store ▸ hl₁) (h₂.store ▸ hready)
  rw [h₂.store, hstore] at hretain
  exact makes_bind hretain fun w₃ h₃ => k w₃ (h₂.trans h₃)

end Act

end ObjectBoundary
