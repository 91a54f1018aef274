import ObjectBoundary.Shared.Proxy
import ObjectBoundary.Proofs.References.Exchange

/-!
# Proxies of structures of the far side

A proxy takes and gives up references to its structure through members of which each may be null.
So what one reference more to the proxy is to a structure of the far side depends on which of the
two is set, and the structure lasts as long as the proxy exactly if it is never released without
having been retained.

* `Standing`: the references to a proxy and to its structure.
* `Standing.taken`, `Standing.adopted`, `Standing.given`: what becomes of them.
* `Standing.Sound`: the structure has what the proxy owns.
* `Store.Fronts`: a proxy and its structure with a standing.
* `ProxyClass.makes_receive_far`: how a proxy of a structure of the far side comes into being.
-/

namespace ObjectBoundary

/-! ## Standings -/

/-- The references to a proxy, those to its structure, and whether the structure has been freed. -/
structure Standing where
  own : Nat
  references : Int
  freed : Bool

namespace Standing

variable {k : Standing} {t : Structure}

/-- A reference to the proxy is taken. -/
def taken (k : Standing) (t : Structure) : Standing :=
  { k with
    own := k.own + 1
    references := if t.isSet Layout.addRef then k.references + 1 else k.references }

/-- The structure alone is released. -/
def adopted (k : Standing) (t : Structure) : Standing :=
  if t.isSet Layout.release then
    { k with references := k.references - 1, freed := k.freed || k.references - 1 == 0 }
  else k

/-- A reference to the proxy is given up. -/
def given (k : Standing) (t : Structure) : Standing := { k.adopted t with own := k.own - 1 }

/-- The standing of a proxy that was just made of a structure with one reference. -/
def received (t : Structure) : Standing := (Standing.taken ⟨0, 1, false⟩ t).adopted t

/-- A structure that can be released has the references that its proxy owns and is freed with the
last of them. One that cannot be released has a reference. -/
structure Sound (k : Standing) (t : Structure) : Prop where
  equal : t.isSet Layout.release = true → k.references = k.own
  least : t.isSet Layout.release = false → 1 ≤ k.references
  freed : k.freed = true ↔ t.isSet Layout.release = true ∧ k.own = 0

/-- A structure that is released is retained. -/
abbrev IsEven (t : Structure) : Prop :=
  t.isSet Layout.release = true → t.isSet Layout.addRef = true

theorem Sound.taken (h : k.Sound t) (ht : IsEven t) (hown : 1 ≤ k.own) : (k.taken t).Sound t := by
  have hfreed : k.freed ≠ true := fun hf => by
    have hzero := (h.freed.mp hf).2
    omega
  refine ⟨fun hrelease => ?_, fun hrelease => ?_, ⟨fun hf => absurd hf hfreed, fun hzero => ?_⟩⟩
  · have hequal := h.equal hrelease
    show (if t.isSet Layout.addRef = true then _ else _) = ((k.own + 1 : Nat) : Int)
    rw [if_pos (ht hrelease)]
    omega
  · have hleast := h.least hrelease
    show 1 ≤ if t.isSet Layout.addRef = true then _ else _
    split <;> omega
  · exact absurd hzero.2 (Nat.succ_ne_zero k.own)

theorem Sound.given (h : k.Sound t) (hown : 1 ≤ k.own) : (k.given t).Sound t := by
  unfold Standing.given adopted
  cases hrelease : t.isSet Layout.release with
  | false =>
    refine ⟨fun hset => ?_, fun _ => h.least hrelease, ⟨fun hf => ?_, fun hset => ?_⟩⟩
    · exact absurd (hrelease.symm.trans hset) Bool.false_ne_true
    · exact absurd (hrelease.symm.trans (h.freed.mp hf).1) Bool.false_ne_true
    · exact absurd (hrelease.symm.trans hset.1) Bool.false_ne_true
  | true =>
    have hequal := h.equal hrelease
    have hfreed : k.freed = false := by
      by_contra hf
      have hzero := (h.freed.mp (Bool.not_eq_false _ ▸ hf)).2
      omega
    refine ⟨fun _ => ?_, fun hnull => ?_, ?_⟩
    · show k.references - 1 = ((k.own - 1 : Nat) : Int)
      omega
    · exact absurd (hnull.symm.trans hrelease) Bool.false_ne_true
    · show (k.freed || k.references - 1 == 0) = true ↔ _ ∧ k.own - 1 = 0
      rw [hfreed, Bool.false_or, beq_iff_eq]
      constructor
      · intro hzero
        exact ⟨hrelease, by omega⟩
      · intro hzero
        have := hzero.2
        omega

/-- A proxy that was just made has a sound standing if its structure is not released without having
been retained, and has freed its structure otherwise. -/
theorem received_cases (t : Structure) :
    (IsEven t → (received t).Sound t) ∧ (¬ IsEven t → (received t).freed = true) := by
  unfold received adopted taken
  cases hrelease : t.isSet Layout.release with
  | false =>
    refine ⟨fun _ => ⟨fun hset => ?_, fun _ => ?_, ⟨nofun, fun hset => ?_⟩⟩, fun hnot => ?_⟩
    · exact absurd (hrelease.symm.trans hset) Bool.false_ne_true
    · show (1 : Int) ≤ if t.isSet Layout.addRef = true then 0 + 1 + 1 else 1
      split <;> decide
    · exact absurd (hrelease.symm.trans hset.1) Bool.false_ne_true
    · exact absurd (fun hset => absurd (hrelease.symm.trans hset) Bool.false_ne_true) hnot
  | true =>
    cases hadd : t.isSet Layout.addRef with
    | false => exact ⟨fun hset => absurd (hadd.symm.trans (hset hrelease)) Bool.false_ne_true,
        fun _ => rfl⟩
    | true =>
      refine ⟨fun _ => ⟨fun _ => rfl, fun hnull => ?_, ⟨nofun, nofun⟩⟩, fun hnot => ?_⟩
      · exact absurd (hnull.symm.trans hrelease) Bool.false_ne_true
      · exact absurd (fun _ => hadd) hnot

end Standing

/-! ## A proxy and its structure -/

theorem Entity.below?_lowered (e : Entity) : e.lowered.below? = e.below? := by
  cases e <;> rfl

namespace Store

variable {st : Store} {p f : Id} {t : Structure} {k : Standing}

theorem below?_modifyAll (st : Store) (xs : List Id) {g : Node → Node}
    (keeps : ∀ n, (g n).entity.below? = n.entity.below?) :
    (st.modifyAll xs g).below? = st.below? := by
  induction xs with
  | nil => rfl
  | cons y xs ih => exact (below?_modify _ y keeps).trans ih

/-- A proxy and the structure of the far side that it is a proxy of. -/
structure Fronts (st : Store) (p f : Id) (t : Structure) (k : Standing) : Prop where
  proxy : ∃ name v live, st.get? p = some ⟨name, .sharedProxy v, live⟩ ∧ v.target = f ∧
    v.count.toNat = k.own
  far : ∃ name a, st.get? f = some ⟨name, .sharedFar ⟨a, t, k.references, k.freed⟩, true⟩

namespace Fronts

theorem ne (h : st.Fronts p f t k) : p ≠ f := by
  obtain ⟨⟨name, v, live, hp, -⟩, ⟨label, a, hf⟩⟩ := h
  rintro rfl
  cases hp.symm.trans hf

theorem chain_far (h : st.Fronts p f t k) (earlier : ∀ x y, st.below? x = some y → y < x) :
    st.chain f = [f] := by
  obtain ⟨-, label, a, hf⟩ := h
  rw [chain_eq_cons earlier, below?_eq_some hf]
  rfl

theorem chain (h : st.Fronts p f t k) (earlier : ∀ x y, st.below? x = some y → y < x) :
    st.chain p = [p, f] := by
  obtain ⟨name, v, live, hp, htarget, -⟩ := h.proxy
  rw [chain_of_below earlier hp (congrArg some htarget), h.chain_far earlier]

/-- How far a reference to the proxy reaches. -/
theorem reach (h : st.Fronts p f t k) (position : Nat) :
    st.reach position [p, f] = if t.isSet position then [p, f] else [p] := by
  obtain ⟨⟨name, v, live, hp, htarget, -⟩, label, a, hf⟩ := h
  have hpasses : st.passes position (.sharedProxy v) = t.isSet position := by
    rw [passes, htarget]
    exact isSet_eq hf rfl position
  cases hset : t.isSet position with
  | true =>
    rw [reach_cons_of_passes hp (hpasses.trans hset), reach_cons_of_not_passes hf rfl]
    rfl
  | false =>
    rw [reach_cons_of_not_passes hp (hpasses.trans hset)]
    rfl

/-- The proxy changes, and its structure does if it is reached. -/
theorem get?_modifyAll (h : st.Fronts p f t k) (position : Nat) (g : Node → Node) :
    (st.modifyAll (st.reach position [p, f]) g).get? p = (st.get? p).map g ∧
      (st.modifyAll (st.reach position [p, f]) g).get? f =
        if t.isSet position then (st.get? f).map g else st.get? f := by
  have hnodup : [p, f].Nodup := by simpa using h.ne
  rw [Store.get?_modifyAll (reach_nodup hnodup _ _), Store.get?_modifyAll (reach_nodup hnodup _ _),
    h.reach]
  cases t.isSet position with
  | true => simp
  | false => simp [h.ne.symm]

/-- A reference to the proxy is taken. -/
theorem raised (h : st.Fronts p f t k)
    (hrise : ∀ n, st.get? p = some n → n.entity.canRise = true) :
    (st.modifyAll (st.reach Layout.addRef [p, f]) Node.raised).Fronts p f t (k.taken t) := by
  obtain ⟨hp', hf'⟩ := h.get?_modifyAll Layout.addRef Node.raised
  obtain ⟨⟨name, v, live, hp, htarget, hcount⟩, label, a, hf⟩ := h
  rw [hp] at hp'
  rw [hf] at hf'
  refine ⟨⟨name, { v with count := v.count.succ }, live, hp', htarget, ?_⟩, label, a, ?_⟩
  · show v.count.succ.toNat = k.own + 1
    rw [Count.toNat_succ_of_not_full (Entity.not_full_of_canRise (hrise _ hp) rfl), hcount]
  · rw [hf', Standing.taken]
    split <;> rfl

theorem adopted (h : st.Fronts p f t k) :
    (if t.isSet Layout.release then st.modify f Node.lowered else st).Fronts p f t
      (k.adopted t) := by
  have hne := h.ne
  unfold Standing.adopted
  split
  · obtain ⟨⟨name, v, live, hp, htarget, hcount⟩, label, a, hf⟩ := h
    refine ⟨⟨name, v, live, ?_, htarget, hcount⟩, label, a, ?_⟩
    · rw [get?_modify, if_neg hne.symm, hp]
    · rw [get?_modify, if_pos rfl, hf]
      rfl
  · exact h

/-- A reference to the proxy is given up. -/
theorem lowered (h : st.Fronts p f t k) (hown : 1 ≤ k.own) :
    (st.modifyAll (st.reach Layout.release [p, f]) Node.lowered).Fronts p f t (k.given t) := by
  obtain ⟨hp', hf'⟩ := h.get?_modifyAll Layout.release Node.lowered
  obtain ⟨⟨name, v, live, hp, htarget, hcount⟩, label, a, hf⟩ := h
  rw [hp] at hp'
  rw [hf] at hf'
  refine ⟨⟨name, { v with count := v.count.pred }, _, hp', htarget, ?_⟩, label, a, ?_⟩
  · show v.count.pred.toNat = k.own - 1
    rw [Count.toNat_pred_of_pos (by omega), hcount]
  · rw [hf', Standing.given, Standing.adopted]
    split <;> rfl

/-- A proxy that exists and its structure exist. -/
theorem upheld (h : st.Fronts p f t k) (hs : st.Sound) (hown : 1 ≤ k.own) :
    st.Upheld (st.chain p) := by
  rw [h.chain hs.earlier]
  obtain ⟨⟨name, v, live, hp, htarget, hcount⟩, label, a, hf⟩ := h
  have hfits : v.count.Fits live := hs.counted p _ hp
  have hlive : live = true := hfits.live_iff.mpr (hcount ▸ hown)
  exact upheld_cons hp hlive rfl (upheld_cons hf rfl rfl (upheld_nil st))

end Fronts

/-- The entities after a proxy of a structure of the far side got its first reference. -/
def introducing (st : Store) (name : String) (c : ProxyClass) (f : Id) : Store :=
  let st' := st.push ⟨name, .sharedProxy ⟨c, f, .zero⟩, true⟩
  st'.modifyAll (st'.reach Layout.addRef [st.size, f]) Node.raised

/-- The entities after the proxy took over the reference that came with the structure. -/
def receiving (st : Store) (name : String) (c : ProxyClass) (f : Id) : Store :=
  if st.isSet f Layout.release then (st.introducing name c f).modify f Node.lowered
  else st.introducing name c f

/-- Nothing refers to a new proxy. -/
theorem below?_receiving_ne (hs : st.Sound) (hf : f < st.size) (name : String) (c : ProxyClass)
    (z : Id) : (st.receiving name c f).below? z ≠ some st.size := by
  have hlinks : (st.receiving name c f).below? =
      (st.push ⟨name, .sharedProxy ⟨c, f, .zero⟩, true⟩).below? := by
    have hintroducing : (st.introducing name c f).below? =
        (st.push ⟨name, .sharedProxy ⟨c, f, .zero⟩, true⟩).below? :=
      below?_modifyAll _ _ fun n => Entity.below?_raised n.entity
    unfold receiving
    split
    · exact (below?_modify _ f fun n => Entity.below?_lowered n.entity).trans hintroducing
    · exact hintroducing
  rw [hlinks, below?, get?_push]
  split
  · intro heq
    exact absurd (Option.some.inj heq) (Nat.ne_of_lt hf)
  · intro heq
    obtain ⟨n, hn, hy⟩ := Option.bind_eq_some_iff.mp heq
    exact absurd (hs.linked z n _ hn hy).2.lt_size (Nat.lt_irrefl _)

section Receiving

variable {label : String} {a : FarAnswers} {r : Int} {freed : Bool}
  (hf : st.get? f = some ⟨label, .sharedFar ⟨a, t, r, freed⟩, true⟩) (name : String)
  (c : ProxyClass)
include hf

theorem fronts_push :
    (st.push ⟨name, .sharedProxy ⟨c, f, .zero⟩, true⟩).Fronts st.size f t ⟨0, r, freed⟩ :=
  ⟨⟨name, _, true, get?_push_size st _, rfl, rfl⟩, label, a,
    (get?_push_of_lt (lt_size hf) _).trans hf⟩

theorem fronts_introducing :
    (st.introducing name c f).Fronts st.size f t (Standing.taken ⟨0, r, freed⟩ t) :=
  (fronts_push hf name c).raised fun n hn => by
    cases (get?_push_size st _).symm.trans hn
    rfl

theorem fronts_receiving :
    (st.receiving name c f).Fronts st.size f t ((Standing.taken ⟨0, r, freed⟩ t).adopted t) := by
  unfold receiving
  rw [isSet_eq hf rfl]
  exact (fronts_introducing hf name c).adopted

end Receiving

end Store

/-! ## Acts on them -/

namespace Act

variable {w : World} {x : Id}

/-- A null member is skipped. -/
theorem makes_through_null {α : Type} {position : Nat} {absent : α} {act : Act α} {n : Node}
    {t : Structure} (hn : w.store.get? x = some n) (hlive : n.live = true)
    (ht : n.entity.struct? = some t) (hnull : t.isSet position = false) :
    Makes (through x position absent act) w absent w.store := by
  unfold through struct
  rw [bind_assoc]
  refine makes_entity_bind hn hlive ?_
  rw [ht]
  show Makes (if t.isSet position = true then contained act else pure absent) w absent w.store
  rw [hnull, if_neg Bool.false_ne_true]
  exact makes_pure absent w

theorem makes_release_far {label : String} {v : SharedFar}
    (hn : w.store.get? x = some ⟨label, .sharedFar v, true⟩) :
    Makes (release x) w (Entity.sharedFar v).releaseAnswer (w.store.modify x Node.lowered) := by
  have hchain : w.store.chain x = [x] := by
    rw [Store.chain, Store.chainWithin_succ, Store.below?_eq_some hn]
    rfl
  have hstore : (w.store.modify x fun n => { n with entity := (Entity.sharedFar v).lowered }) =
      w.store.modify x Node.lowered := Store.modify_congr fun n hn' => by
    cases hn.symm.trans hn'
    rfl
  have hrelease : Makes (releaseAlong (w.store.chain x)) w (Entity.sharedFar v).releaseAnswer
      (w.store.modify x fun n => { n with entity := (Entity.sharedFar v).lowered }) := by
    rw [hchain]
    exact makes_entity_bind hn rfl fun phase => ⟨_, rfl, rfl, rfl, rfl⟩
  rw [hstore] at hrelease
  exact hrelease

end Act

namespace ProxyClass

variable {w : World} {f : Id} {label : String} {v : SharedFar} (c : ProxyClass) (name : String)

/-- A new proxy of a structure of the far side gets its first reference. -/
theorem makes_retain_push (hl : w.store.Linked)
    (hf : w.store.get? f = some ⟨label, .sharedFar v, true⟩) {w' : World}
    (h : w.Becomes w' (w.store.push ⟨name, .sharedProxy ⟨c, f, .zero⟩, true⟩)) :
    Act.Makes (Act.retain w.store.size) w' () (w.store.introducing name c f) := by
  have hfresh : Node.IsFresh ⟨name, .sharedProxy ⟨c, f, .zero⟩, true⟩ w.store f :=
    ⟨rfl, rfl, rfl, ⟨_, hf, rfl⟩, trivial⟩
  have hl' := hfresh.linked_push hl
  have hproxy := Store.get?_push_size w.store ⟨name, .sharedProxy ⟨c, f, .zero⟩, true⟩
  have hstruct := (Store.get?_push_of_lt (Store.lt_size hf)
    ⟨name, .sharedProxy ⟨c, f, .zero⟩, true⟩).trans hf
  have hup := Store.upheld_cons hproxy rfl rfl
    (Store.upheld_cons hstruct rfl rfl (Store.upheld_nil _))
  have hrise := Store.canRise_cons hproxy rfl
    (Store.canRise_cons hstruct rfl (Store.canRise_nil _))
  unfold Store.introducing
  rw [← (Store.fronts_push hf name c).chain hl'.earlier] at hup hrise ⊢
  rw [← h.store] at hl' hup hrise ⊢
  exact Act.makes_retain_reach hl' hup hrise

/-- A proxy of a structure of the far side comes into being, whichever members are null. -/
theorem makes_receive_far (hl : w.store.Linked) (ht : w.IsTolerant)
    (hf : w.store.get? f = some ⟨label, .sharedFar v, true⟩) :
    Act.Makes (c.receive name f) w w.store.size (w.store.receiving name c f) := by
  refine Act.makes_yields_bind (Act.yields_requireRunning ht) fun w₁ h₁ => ?_
  rw [← h₁.store] at hl hf ⊢
  refine Act.makes_bind (fun phase => ⟨_, rfl, rfl, rfl, rfl⟩) fun w₂ h₂ => ?_
  refine Act.makes_bind (makes_retain_push c name hl hf h₂) fun w₃ h₃ => ?_
  have hadopt : Act.Makes (discard (Act.through f Layout.release 0 (Act.release f))) w₃ ()
      (w₁.store.receiving name c f) := by
    obtain ⟨label', a', hf₃⟩ := (Store.fronts_introducing hf name c).far
    unfold Store.receiving
    rw [← h₃.store] at hf₃ ⊢
    rw [Store.isSet_eq hf rfl]
    split
    · rename_i hset
      exact Act.makes_discard (Act.makes_through hf₃ rfl rfl hset (Act.makes_release_far hf₃))
    · rename_i hnull
      rw [Bool.not_eq_true] at hnull
      exact Act.makes_discard (Act.makes_through_null hf₃ rfl rfl hnull)
  exact Act.makes_bind hadopt fun w₄ h₄ => Act.makes_crossed h₄.store

end ProxyClass

end ObjectBoundary
