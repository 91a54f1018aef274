import ObjectBoundary.Proofs.References.Course

/-!
# Wrappers and proxies come into being

A wrapper or proxy is added without a reference and gets one at once, which takes one to what it
refers to. The two changes together move a single reference, to the new entity.

* `Store.Keeps`: entities may have been added, and the others are as they were.
* `Store.modifyAll_push`, `Store.reach_push`: adding an entity leaves the others alone.
* `World.Retained.ascends_of_push`: the first reference of a new entity.
-/

namespace ObjectBoundary

namespace Store

variable {st : Store} {n : Node} {x : Id}

/-! ## Adding an entity -/

theorem get?_push_of_lt (h : x < st.size) (n : Node) : (st.push n).get? x = st.get? x := by
  rw [get?_push, if_neg (Nat.ne_of_lt h)]

theorem get?_push_size (st : Store) (n : Node) : (st.push n).get? st.size = some n := by
  rw [get?_push, if_pos rfl]

theorem modify_push_of_lt (h : x < st.size) (n : Node) (f : Node → Node) :
    (st.push n).modify x f = (st.modify x f).push n := by
  apply ext_get?
  intro i
  rw [get?_modify, get?_push, get?_push, size_modify, get?_modify]
  by_cases hi : i = st.size
  · have hne : x ≠ i := Nat.ne_of_lt (hi ▸ h)
    rw [if_neg hne, if_pos hi, if_pos hi]
  · rw [if_neg hi, if_neg hi]

theorem modify_push_size (st : Store) (n : Node) (f : Node → Node) :
    (st.push n).modify st.size f = st.push (f n) := by
  refine ext_get? fun i => ?_
  rw [get?_modify, get?_push, get?_push]
  by_cases hi : i = st.size
  · rw [if_pos hi.symm, if_pos hi, if_pos hi]
    rfl
  · rw [if_neg (Ne.symm hi), if_neg hi, if_neg hi]

theorem modifyAll_push {xs : List Id} (h : ∀ x ∈ xs, x < st.size) (n : Node) (f : Node → Node) :
    (st.push n).modifyAll xs f = (st.modifyAll xs f).push n := by
  induction xs with
  | nil => rfl
  | cons x xs ih =>
    have hsize : (st.modifyAll xs f).size = st.size := size_modifyAll st xs f
    have hx := h x List.mem_cons_self
    rw [modifyAll_cons, modifyAll_cons, ih fun y hy => h y (List.mem_cons_of_mem x hy),
      modify_push_of_lt (hsize ▸ hx)]

/-- Entities may have been added, and those that were there are as they were. -/
def Keeps (st st' : Store) : Prop := ∀ x < st.size, st'.get? x = st.get? x

theorem Keeps.refl (st : Store) : st.Keeps st := fun _ _ => rfl

theorem exists_of_lt_size (h : x < st.size) : ∃ n, st.get? x = some n :=
  ⟨_, List.getElem?_eq_getElem h⟩

theorem Keeps.trans {st₁ st₂ : Store} (h : st.Keeps st₁) (h' : st₁.Keeps st₂) : st.Keeps st₂ := by
  intro x hx
  obtain ⟨n, hn⟩ := exists_of_lt_size hx
  exact (h' x (lt_size ((h x hx).trans hn))).trans (h x hx)

theorem keeps_push (st : Store) (n : Node) : st.Keeps (st.push n) :=
  fun _ hx => get?_push_of_lt hx n

/-- What was added later may change. -/
theorem Keeps.modify {st' : Store} (h : st.Keeps st') (hx : st.size ≤ x) (f : Node → Node) :
    st.Keeps (st'.modify x f) := by
  intro y hy
  rw [get?_modify, if_neg (Nat.ne_of_gt (Nat.lt_of_lt_of_le hy hx)), h y hy]

/-- What was there keeps its chain. -/
theorem Keeps.chain {st' : Store} (h : st.Keeps st') (hl : st.Linked) (hl' : st'.Linked)
    (hx : x < st.size) : st'.chain x = st.chain x := by
  induction x using Nat.strongRecOn with
  | ind x ih =>
    have hbelow : st'.below? x = st.below? x := congrArg (·.bind fun n => n.entity.below?) (h x hx)
    rw [chain_eq_cons hl'.earlier, chain_eq_cons hl.earlier, hbelow]
    cases hb : st.below? x with
    | none => rfl
    | some y =>
      have hlt := hl.earlier x y hb
      rw [Option.elim_some, Option.elim_some, ih y hlt (Nat.lt_trans hlt hx)]

theorem passes_push {e : Entity} (h : ∀ y, e.backing? = some y → y < st.size) (n : Node)
    (position : Nat) : (st.push n).passes position e = st.passes position e := by
  cases e with
  | sharedProxy p => rw [passes, passes, isSet, isSet, get?_push_of_lt (h p.target rfl)]
  | _ => rfl

theorem reach_push {xs : List Id} (hs : st.Sound) (h : ∀ x ∈ xs, x < st.size) (n : Node)
    (position : Nat) : (st.push n).reach position xs = st.reach position xs := by
  induction xs with
  | nil => rfl
  | cons x xs ih =>
    have hx := get?_push_of_lt (h x List.mem_cons_self) n
    rw [reach, reach, hx, ih fun y hy => h y (List.mem_cons_of_mem x hy)]
    cases hm : st.get? x with
    | none => rfl
    | some m =>
      have hlt : ∀ y, m.entity.backing? = some y → y < st.size := fun y hy =>
        Nat.lt_trans (hs.linked x m y hm (backing?_eq_below? hy)).1 (lt_size hm)
      rw [Option.any_some, Option.any_some, passes_push hlt]

end Store

/-! ## The first reference -/

/-- A wrapper or proxy that has no reference yet. -/
structure Node.IsFresh (n : Node) (st : Store) (y : Id) : Prop where
  live : n.live = true
  count : n.entity.sharedCount? = some .zero
  backing : n.entity.backing? = some y
  linked : st.HasRole y n.entity.linkRole
  formed : n.entity.Formed

namespace Node.IsFresh

variable {n : Node} {st : Store} {y : Id}

theorem below? (h : n.IsFresh st y) : n.entity.below? = some y :=
  Store.backing?_eq_below? h.backing

theorem linked_push (h : n.IsFresh st y) (hl : st.Linked) : (st.push n).Linked := by
  have hst := Store.continues_push st n
  intro x m z hm hz
  rw [Store.get?_push] at hm
  split at hm
  · rename_i hx
    cases hm
    cases h.below?.symm.trans hz
    exact ⟨hx ▸ h.linked.lt_size, hst.hasRole h.linked⟩
  · obtain ⟨hlt, hr⟩ := hl x m z hm hz
    exact ⟨hlt, hst.hasRole hr⟩

theorem references_raised (h : n.IsFresh st y) : n.raised.entity.references = 1 := by
  have one {c : Count} (hc : some c = some Count.zero) : (c.succ.toNat : Int) = 1 := by
    rw [Option.some.inj hc]
    rfl
  obtain ⟨name, e, live⟩ := n
  have hc := h.count
  cases e with
  | sharedObject o => exact one hc
  | sharedWrapper v => exact one hc
  | sharedProxy p => exact one hc
  | _ => cases hc

theorem counted_raised (h : n.IsFresh st y) : n.raised.Counted := by
  have fits {c : Count} (hc : some c = some Count.zero) : c.succ.Fits n.live := by
    rw [Option.some.inj hc]
    exact Count.fits_succ h.live rfl
  obtain ⟨name, e, live⟩ := n
  have hc := h.count
  cases e with
  | sharedObject o => exact fits hc
  | sharedWrapper v => exact fits hc
  | sharedProxy p => exact fits hc
  | _ => cases hc

/-- The chain of a new entity goes on with that of the one it refers to. -/
theorem chain_push (h : n.IsFresh st y) (hl : st.Linked) :
    (st.push n).chain st.size = st.size :: st.chain y := by
  have hl' := h.linked_push hl
  rw [Store.chain_of_below hl'.earlier (Store.get?_push_size st n) h.below?,
    (Store.keeps_push st n).chain hl hl' h.linked.lt_size]

theorem isFreed (h : n.IsFresh st y) : n.isFreed = false := by
  obtain ⟨name, e, live⟩ := n
  have hc := h.count
  cases e with
  | sharedObject o => exact congrArg (!·) h.live
  | sharedWrapper v => exact congrArg (!·) h.live
  | sharedProxy p => exact congrArg (!·) h.live
  | _ => cases hc

end Node.IsFresh

namespace World

variable {w w₂ : World} {n : Node} {o : Id}

/-- What the first reference of a new entity does to the others. -/
theorem Retained.below_push (hs : w.store.Sound) (hf : n.IsFresh w.store o)
    (h : World.Retained { w with store := w.store.push n } w₂
      (World.above { w with store := w.store.push n } w.store.size)) :
    ∃ st, w₂.store = st.push n.raised ∧ st.size = w.store.size ∧ st.Sound ∧
      w.store.Continues st ∧
      ∀ z, st.Accountable z → st.outside z = w.store.outside z + credit (some o) 1 z := by
  have hlt : o < w.store.size := hf.linked.lt_size
  have hsize := Store.get?_push_size w.store n
  have hchain := hf.chain_push hs.linked
  have hle : ∀ y ∈ w.store.chain o, y < w.store.size := fun y hy =>
    Nat.lt_of_le_of_lt (Store.chain_le hs.earlier o y hy) hlt
  have hpass : (w.store.push n).passes Layout.addRef n.entity =
      w.store.passes Layout.addRef n.entity := Store.passes_push (fun y hy => by
    rw [hf.backing] at hy
    exact Option.some.inj hy ▸ hlt) n _
  have hstore {ys : List Id} (hys : ∀ y ∈ ys, y < w.store.size) :
      (w.store.push n).modifyAll (w.store.size :: ys) Node.raised =
        (w.store.modifyAll ys Node.raised).push n.raised := by
    rw [Store.modifyAll_cons, Store.modifyAll_push hys]
    have := Store.modify_push_size (w.store.modifyAll ys Node.raised) n Node.raised
    rwa [Store.size_modifyAll] at this
  have habove : World.above { w with store := w.store.push n } w.store.size =
      (w.store.push n).reach Layout.addRef (w.store.size :: w.store.chain o) := by
    rw [← hchain]
    rfl
  cases hp : w.store.passes Layout.addRef n.entity with
  | true =>
    rw [Store.reach_cons_of_passes hsize (hpass.trans hp), Store.reach_push hs hle] at habove
    have hreach : ∀ y ∈ w.above o, y < w.store.size := fun y hy =>
      hle y (Store.reach_subset _ _ _ y hy)
    have hshift : w.store.AllShift (w.above o) Node.raised 1 := by
      intro y hy
      have hmem : y ∈ w.store.size :: w.above o := List.mem_cons_of_mem _ hy
      obtain ⟨m, hm, hlive, hshared⟩ := h.upheld y (habove ▸ hmem)
      have hr := h.canRise y (habove ▸ hmem) m hm
      rw [Store.get?_push_of_lt (hreach y hy)] at hm
      exact ⟨m, hm, Node.shifts_raised (hs.counted y m hm) hlive hshared hr⟩
    obtain ⟨hsound, hcont, hout⟩ := Store.outside_modifyAll hs (Or.inl rfl) o hshift
    refine ⟨_, ?_, Store.size_modifyAll _ _ _, hsound, hcont, hout⟩
    rw [h.adjusted.store, habove]
    exact hstore hreach
  | false =>
    rw [Store.reach_cons_of_not_passes hsize (hpass.trans hp)] at habove
    refine ⟨w.store, ?_, rfl, hs, .refl _, ?_⟩
    · rw [h.adjusted.store, habove]
      exact hstore fun _ h => nomatch h
    · intro z hz
      have hne : z ≠ o := by
        intro heq
        subst heq
        exact Store.not_accountable_of_not_passes (Or.inl rfl) hp hf.backing hf.linked hz
      rw [credit_of_ne hne, add_zero]

theorem Retained.ascends_of_push (hs : w.store.Sound) (hf : n.IsFresh w.store o)
    (h : World.Retained { w with store := w.store.push n } w₂
      (World.above { w with store := w.store.push n } w.store.size)) :
    w.Ascends w₂ (credit (some w.store.size) 1) ∧
      ∃ m, w₂.store.get? w.store.size = some m ∧ n.entity.Continues m.entity := by
  have hlink : n.entity.below? = some o := hf.below?
  have earlier := (hf.linked_push hs.linked).earlier
  have hnodup := Store.reach_nodup (Store.chain_nodup earlier w.store.size) (w.store.push n)
    Layout.addRef
  have hrises := h.rises hnodup
  have htold := h.adjusted.told hnodup fun y hy => by
    obtain ⟨m, hm, -, hshared⟩ := h.upheld y hy
    exact ⟨m, hm, Node.references_raised hshared (h.canRise y hy m hm)⟩
  have hdrops := h.adjusted.drops
  obtain ⟨st, hstore, hsize, hsound, hcont, hout⟩ := h.below_push hs hf
  have hlive : n.raised.live = true := hf.live
  have hbacks : ∀ z, (n.raised.backs z : Int) = credit (some o) 1 z := fun z => by
    rw [Node.backs_eq hlive, hf.references_raised]
    exact congrArg (credit · 1 z) ((Entity.backing?_raised n.entity).trans hf.backing)
  refine ⟨⟨⟨?_, ?_, fun z hz => ?_, fun z hz => ?_, fun z => ?_⟩, hrises.changes,
    fun z hz => ?_⟩, n.raised, ?_, Entity.continues_raised n.entity⟩
  · rw [hstore]
    refine Store.sound_push hsound hf.counted_raised
      ((Entity.continues_raised _).formed hf.formed) fun y hy => ?_
    have hy' := (Entity.continues_raised n.entity).below? hy
    rw [hlink] at hy'
    cases hy'
    rw [show n.raised.entity.linkRole = n.entity.linkRole from
      (Entity.continues_raised n.entity).linkRole]
    exact hcont.hasRole hf.linked
  · rw [hstore]
    exact hcont.trans (Store.continues_push _ _)
  · rw [hstore] at hz ⊢
    rw [Store.outside_push, hout z ((Store.continues_push _ _).accountable hz), hbacks,
      hf.references_raised, hsize]
    omega
  · have := htold z
    obtain ⟨m, hm, -⟩ := hz
    rw [show (w.store.push n).references z = w.store.references z by
      rw [Store.references, Store.references, Store.get?_push_of_lt (Store.lt_size hm)]] at this
    exact this
  · have := hdrops z
    rw [Store.standing_push w.store hf.live] at this
    exact this
  · have := hrises.freed z hz
    rw [Store.isFreed, Store.get?_push] at this
    split at this
    · rw [Option.any_some, hf.isFreed] at this
      cases this
    · exact this
  · rw [hstore, ← hsize]
    exact Store.get?_push_size st n.raised

end World

end ObjectBoundary
