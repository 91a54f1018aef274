import ObjectBoundary.Store

/-!
# Sound stores

What holds of all entities whenever no act is under way: a shared entity exists as long as it
has a reference, every link leads to an earlier entity of the right role, and every structure
has the layout of its maker. What an entity is and where its links lead never changes.

* `Entity.role`, `Entity.linkRole`: what an entity is, and what it refers to.
* `Node.Counted`, `Store.Sound`: the invariant, for one entity and for all.
* `Entity.Continues`, `Store.Continues`: what an entity keeps from one moment to a later one.
-/

namespace ObjectBoundary

/-! ## Roles -/

/-- What an entity is to those that refer to it. -/
inductive Role where
  | sharedObject
  | sharedStructure
  | ownedObject
  | ownedStructure
  | device
deriving DecidableEq

namespace Entity

def role : Entity → Role
  | sharedObject _ | sharedProxy _ => .sharedObject
  | sharedWrapper _ | sharedFar _ => .sharedStructure
  | ownedObject _ | ownedProxy _ => .ownedObject
  | ownedWrapper _ | ownedFar _ => .ownedStructure
  | counter _ | checker _ => .device

/-- Whether an entity is reference counted. -/
def isShared (e : Entity) : Bool := decide (e.role = .sharedObject ∨ e.role = .sharedStructure)

/-- The role of what an entity refers to. Entities without a link have none; for them the role is
a mere default. -/
def linkRole : Entity → Role
  | sharedWrapper _ => .sharedObject
  | sharedProxy _ => .sharedStructure
  | ownedWrapper _ => .ownedObject
  | ownedProxy _ => .ownedStructure
  | _ => .device

theorem struct?_of_role {e : Entity} (h : e.role = .sharedStructure) : ∃ s, e.struct? = some s := by
  cases e <;> first | exact ⟨_, rfl⟩ | cases h

/-- The number of references to an entity. -/
def references : Entity → Int
  | sharedObject o => o.count.toNat
  | sharedWrapper w => w.count.toNat
  | sharedProxy p => p.count.toNat
  | sharedFar f => f.references
  | _ => 0

end Entity

/-! ## Counts and layouts -/

/-- The largest count that is ever reached. -/
def Count.top : Nat := Count.limit.toNat + 1

/-- The count of an entity of this side, which exists as long as it has a reference. -/
structure Count.Fits (c : Count) (live : Bool) : Prop where
  live_iff : live = true ↔ 0 < c.toNat
  le_top : c.toNat ≤ Count.top

/-- The count of an entity agrees with its existence. The far side never reclaims a structure,
but marks it when its count falls to zero. -/
def Node.Counted (n : Node) : Prop :=
  match n.entity with
  | .sharedObject o => o.count.Fits n.live
  | .sharedWrapper w => w.count.Fits n.live
  | .sharedProxy p => p.count.Fits n.live
  | .sharedFar f => n.live = true ∧ (f.references ≤ 0 → f.freed = true)
  | _ => True

/-- A structure has the layout of its maker. -/
def Entity.Formed : Entity → Prop
  | .sharedWrapper w => w.struct.layout = w.cls.layout
  | .ownedWrapper w => w.struct.layout = w.cls.layout
  | .sharedFar f => f.struct.layout = Layout.sharedChild
  | .ownedFar f => f.struct.layout = Layout.ownedChild
  | _ => True

/-! ## The invariant -/

namespace Store

/-- There is an entity of a certain role. -/
def HasRole (st : Store) (x : Id) (r : Role) : Prop := ∃ n, st.get? x = some n ∧ n.entity.role = r

structure Sound (st : Store) : Prop where
  counted : ∀ x n, st.get? x = some n → n.Counted
  formed : ∀ x n, st.get? x = some n → n.entity.Formed
  linked : ∀ x n y, st.get? x = some n → n.entity.below? = some y →
    y < x ∧ st.HasRole y n.entity.linkRole

theorem lt_size {st : Store} {x : Id} {n : Node} (h : st.get? x = some n) : x < st.size := by
  unfold get? at h
  exact (List.getElem?_eq_some_iff.mp h).1

theorem get?_size (st : Store) : st.get? st.size = none := List.getElem?_eq_none (Nat.le_refl _)

theorem HasRole.lt_size {st : Store} {x : Id} {r : Role} (h : st.HasRole x r) : x < st.size :=
  h.elim fun _ hn => Store.lt_size hn.1

theorem sound_empty : empty.Sound := by
  constructor <;> intro x n <;> simp [empty, get?]

theorem Sound.earlier {st : Store} (h : st.Sound) (x y : Id) (hy : st.below? x = some y) :
    y < x := by
  unfold below? at hy
  cases hn : st.get? x with
  | none => rw [hn] at hy; cases hy
  | some n =>
    rw [hn] at hy
    exact (h.linked x n y hn hy).1

end Store

/-! ## What stays -/

/-- Members may be set to null, but a null member stays null. -/
structure Structure.Continues (s s' : Structure) : Prop where
  layout : s'.layout = s.layout
  isSet : ∀ i, s'.isSet i = true → s.isSet i = true

theorem Structure.Continues.refl (s : Structure) : s.Continues s := ⟨rfl, fun _ h => h⟩

theorem Structure.Continues.trans {s s' s'' : Structure} (h : s.Continues s')
    (h' : s'.Continues s'') : s.Continues s'' :=
  ⟨h'.layout.trans h.layout, fun i hi => h.isSet i (h'.isSet i hi)⟩

/-- An entity stays what it is and keeps its link. Only links to what has a single owner may be
lost. -/
def Entity.Continues : Entity → Entity → Prop
  | .sharedObject o, .sharedObject o' => o'.object = o.object
  | .ownedObject o, .ownedObject o' => o' = o
  | .sharedWrapper w, .sharedWrapper w' =>
    w'.cls = w.cls ∧ w'.object = w.object ∧ w.struct.Continues w'.struct
  | .ownedWrapper w, .ownedWrapper w' =>
    w'.cls = w.cls ∧ w'.owns = w.owns ∧ (w'.object = w.object ∨ w'.object = none) ∧
      w.struct.Continues w'.struct
  | .sharedProxy p, .sharedProxy p' => p'.cls = p.cls ∧ p'.target = p.target
  | .ownedProxy p, .ownedProxy p' =>
    p'.cls = p.cls ∧ (p'.target = p.target ∨ p'.target = none)
  | .sharedFar f, .sharedFar f' => f'.answers = f.answers ∧ f.struct.Continues f'.struct
  | .ownedFar f, .ownedFar f' => f'.answers = f.answers ∧ f.struct.Continues f'.struct
  | .counter _, .counter _ => True
  | .checker _, .checker _ => True
  | _, _ => False

namespace Entity.Continues

theorem refl (e : Entity) : e.Continues e := by
  cases e with
  | sharedObject o => exact rfl
  | ownedObject o => exact rfl
  | sharedWrapper w => exact ⟨rfl, rfl, .refl _⟩
  | ownedWrapper w => exact ⟨rfl, rfl, Or.inl rfl, .refl _⟩
  | sharedProxy p => exact ⟨rfl, rfl⟩
  | ownedProxy p => exact ⟨rfl, Or.inl rfl⟩
  | sharedFar f => exact ⟨rfl, .refl _⟩
  | ownedFar f => exact ⟨rfl, .refl _⟩
  | counter c => trivial
  | checker b => trivial

theorem trans {e e' e'' : Entity} (h : e.Continues e') (h' : e'.Continues e'') :
    e.Continues e'' := by
  cases e <;> cases e' <;> try contradiction
  case sharedObject =>
    cases e'' <;> try contradiction
    exact Eq.trans h' h
  case ownedObject =>
    cases e'' <;> try contradiction
    exact Eq.trans h' h
  case sharedWrapper =>
    cases e'' <;> try contradiction
    exact ⟨h'.1.trans h.1, h'.2.1.trans h.2.1, h.2.2.trans h'.2.2⟩
  case ownedWrapper =>
    cases e'' <;> try contradiction
    refine ⟨h'.1.trans h.1, h'.2.1.trans h.2.1, ?_, h.2.2.2.trans h'.2.2.2⟩
    rcases h'.2.2.1 with ho | ho
    · exact h.2.2.1.imp ho.trans ho.trans
    · exact Or.inr ho
  case sharedProxy =>
    cases e'' <;> try contradiction
    exact ⟨h'.1.trans h.1, h'.2.trans h.2⟩
  case ownedProxy =>
    cases e'' <;> try contradiction
    refine ⟨h'.1.trans h.1, ?_⟩
    rcases h'.2 with ht | ht
    · exact h.2.imp ht.trans ht.trans
    · exact Or.inr ht
  case sharedFar =>
    cases e'' <;> try contradiction
    exact ⟨h'.1.trans h.1, h.2.trans h'.2⟩
  case ownedFar =>
    cases e'' <;> try contradiction
    exact ⟨h'.1.trans h.1, h.2.trans h'.2⟩
  case counter => cases e'' <;> trivial
  case checker => cases e'' <;> trivial

theorem role {e e' : Entity} (h : e.Continues e') : e'.role = e.role := by
  cases e <;> cases e' <;> first | rfl | contradiction

theorem linkRole {e e' : Entity} (h : e.Continues e') : e'.linkRole = e.linkRole := by
  cases e <;> cases e' <;> first | rfl | contradiction

theorem formed {e e' : Entity} (h : e.Continues e') (hf : e.Formed) : e'.Formed := by
  cases e <;> cases e' <;> try contradiction
  case sharedObject | ownedObject | sharedProxy | ownedProxy | counter | checker => trivial
  case sharedWrapper w w' => exact h.2.2.layout.trans (hf.trans (congrArg _ h.1.symm))
  case ownedWrapper w w' => exact h.2.2.2.layout.trans (hf.trans (congrArg _ h.1.symm))
  case sharedFar => exact h.2.layout.trans hf
  case ownedFar => exact h.2.layout.trans hf

/-- A link is kept or lost. -/
theorem below? {e e' : Entity} (h : e.Continues e') {y : Id} (hy : e'.below? = some y) :
    e.below? = some y := by
  cases e <;> cases e' <;> try contradiction
  case sharedWrapper w w' => exact (congrArg some h.2.1.symm).trans hy
  case ownedWrapper w w' =>
    rcases h.2.2.1 with ho | ho
    · exact ho.symm.trans hy
    · exact absurd (ho.symm.trans hy) nofun
  case sharedProxy p p' => exact (congrArg some h.2.symm).trans hy
  case ownedProxy p p' =>
    rcases h.2 with ht | ht
    · exact ht.symm.trans hy
    · exact absurd (ht.symm.trans hy) nofun

end Entity.Continues

/-- An entity keeps its name, and what has ceased to exist does not come back. -/
structure Node.Continues (n n' : Node) : Prop where
  name : n'.name = n.name
  live : n'.live = true → n.live = true
  entity : n.entity.Continues n'.entity

theorem Node.Continues.refl (n : Node) : n.Continues n := ⟨rfl, fun h => h, .refl _⟩

theorem Node.Continues.trans {n n' n'' : Node} (h : n.Continues n') (h' : n'.Continues n'') :
    n.Continues n'' :=
  ⟨h'.name.trans h.name, fun hl => h.live (h'.live hl), h.entity.trans h'.entity⟩

namespace Store

/-- Every entity is still there. -/
def Continues (st st' : Store) : Prop :=
  ∀ x n, st.get? x = some n → ∃ n', st'.get? x = some n' ∧ n.Continues n'

theorem Continues.refl (st : Store) : st.Continues st := fun _ n h => ⟨n, h, .refl n⟩

theorem Continues.trans {st st' st'' : Store} (h : st.Continues st') (h' : st'.Continues st'') :
    st.Continues st'' := by
  intro x n hn
  obtain ⟨n', hn', hc⟩ := h x n hn
  obtain ⟨n'', hn'', hc'⟩ := h' x n' hn'
  exact ⟨n'', hn'', hc.trans hc'⟩

theorem Continues.hasRole {st st' : Store} (h : st.Continues st') {x : Id} {r : Role}
    (hr : st.HasRole x r) : st'.HasRole x r := by
  obtain ⟨n, hn, rfl⟩ := hr
  obtain ⟨n', hn', hc⟩ := h x n hn
  exact ⟨n', hn', hc.entity.role⟩

/-- A wrapper that only borrows its object. -/
def IsLent (st : Store) (x : Id) : Prop :=
  ∃ n v, st.get? x = some n ∧ n.entity = .ownedWrapper v ∧ v.owns = false

theorem Continues.isLent {st st' : Store} (h : st.Continues st') {x : Id} (hx : st.IsLent x) :
    st'.IsLent x := by
  obtain ⟨⟨name, e, live⟩, v, hn, he, hv⟩ := hx
  cases he
  obtain ⟨⟨name', e', live'⟩, hn', hc⟩ := h x _ hn
  cases e' with
  | ownedWrapper v' => exact ⟨_, v', hn', rfl, hc.entity.2.1.trans hv⟩
  | _ => exact hc.entity.elim

theorem continues_modify {st : Store} {x : Id} {f : Node → Node} {n : Node}
    (hn : st.get? x = some n) (hf : n.Continues (f n)) : st.Continues (st.modify x f) := by
  intro y m hm
  rw [get?_modify]
  split
  · rename_i hxy
    subst hxy
    cases hn.symm.trans hm
    exact ⟨f n, by rw [hn]; rfl, hf⟩
  · exact ⟨m, hm, .refl m⟩

theorem continues_push (st : Store) (n : Node) : st.Continues (st.push n) := by
  intro y m hm
  refine ⟨m, ?_, .refl m⟩
  rw [get?_push, if_neg (Nat.ne_of_lt (lt_size hm)), hm]

/-- Changing one entity keeps a store sound. -/
theorem sound_modify {st : Store} (h : st.Sound) {x : Id} {f : Node → Node} {n : Node}
    (hn : st.get? x = some n) (hf : n.Continues (f n)) (hc : (f n).Counted) :
    (st.modify x f).Sound := by
  have hst := continues_modify hn hf
  have split_get {y : Id} {m : Node} (hm : (st.modify x f).get? y = some m) :
      (y = x ∧ m = f n) ∨ st.get? y = some m := by
    rw [get?_modify] at hm
    split at hm
    · rename_i hxy
      subst hxy
      rw [hn] at hm
      exact Or.inl ⟨rfl, (Option.some.inj hm).symm⟩
    · exact Or.inr hm
  refine ⟨?_, ?_, ?_⟩
  · intro y m hm
    rcases split_get hm with ⟨rfl, rfl⟩ | hm
    · exact hc
    · exact h.counted y m hm
  · intro y m hm
    rcases split_get hm with ⟨rfl, rfl⟩ | hm
    · exact hf.entity.formed (h.formed y n hn)
    · exact h.formed y m hm
  · intro y m z hm hz
    rcases split_get hm with ⟨rfl, rfl⟩ | hm
    · obtain ⟨hlt, hr⟩ := h.linked y n z hn (hf.entity.below? hz)
      exact ⟨hlt, hf.entity.linkRole ▸ hst.hasRole hr⟩
    · obtain ⟨hlt, hr⟩ := h.linked y m z hm hz
      exact ⟨hlt, hst.hasRole hr⟩

/-- Adding an entity keeps a store sound. -/
theorem sound_push {st : Store} (h : st.Sound) {n : Node} (hc : n.Counted) (hf : n.entity.Formed)
    (hl : ∀ y, n.entity.below? = some y → st.HasRole y n.entity.linkRole) :
    (st.push n).Sound := by
  have hst := continues_push st n
  have split_get {y : Id} {m : Node} (hm : (st.push n).get? y = some m) :
      (y = st.size ∧ m = n) ∨ st.get? y = some m := by
    rw [get?_push] at hm
    split at hm
    · rename_i hy
      exact Or.inl ⟨hy, (Option.some.inj hm).symm⟩
    · exact Or.inr hm
  refine ⟨fun y m hm => ?_, fun y m hm => ?_, fun y m z hm hz => ?_⟩
  · rcases split_get hm with ⟨rfl, rfl⟩ | hm
    · exact hc
    · exact h.counted y m hm
  · rcases split_get hm with ⟨rfl, rfl⟩ | hm
    · exact hf
    · exact h.formed y m hm
  · rcases split_get hm with ⟨rfl, rfl⟩ | hm
    · exact ⟨(hl z hz).lt_size, hst.hasRole (hl z hz)⟩
    · obtain ⟨hlt, hr⟩ := h.linked y m z hm hz
      exact ⟨hlt, hst.hasRole hr⟩

end Store

end ObjectBoundary
