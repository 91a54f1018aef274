import ObjectBoundary.Proofs.References.Transfer

/-!
# Custody of owned objects

An owned object that exists is either kept by a wrapper that owns it, or it is *loose*: somebody
else has it. How custody changes is said by a number for every object and by a list of what has
ceased to exist.

* `Store.keepers`: the wrappers that own an object.
* `Store.loose`: one for an object that exists, less its keepers.
* `Store.Custody`: how custody has changed from one store to another.
* `World.Apart`: nothing on this side that has a single owner has changed.
* `Custody.modify`, `custody_push`: what single changes make of custody.
-/

namespace ObjectBoundary

/-! ## What has a single owner -/

namespace Entity

/-- Whether an entity of this side has a single owner. -/
def isOwned : Entity → Bool
  | ownedObject _ | ownedWrapper _ | ownedProxy _ => true
  | _ => false

/-- The object that an entity owns. -/
def keeps? : Entity → Option Id
  | ownedWrapper v => if v.owns then v.object else none
  | _ => none

/-- A wrapper that owns nothing cannot be deleted through its structure. -/
def isGuarded : Entity → Bool
  | ownedWrapper v => v.owns || !v.struct.isSet Layout.del
  | _ => true

theorem keeps?_of_not_isOwned {e : Entity} (h : e.isOwned = false) : e.keeps? = none := by
  cases e <;> first | rfl | cases h

/-- What owns an object is a wrapper. -/
theorem keeps?_eq_some {e : Entity} {o : Id} :
    e.keeps? = some o ↔ ∃ v, e = .ownedWrapper v ∧ v.owns = true ∧ v.object = some o := by
  cases e with
  | ownedWrapper v =>
    show (if v.owns then v.object else none) = some o ↔ _
    constructor
    · intro h
      obtain ⟨howns, hobject⟩ := Option.ite_none_right_eq_some.mp h
      exact ⟨v, rfl, howns, hobject⟩
    · rintro ⟨_, ⟨⟩, howns, hobject⟩
      rw [if_pos howns, hobject]
  | _ => exact ⟨nofun, fun ⟨_, h, _⟩ => nomatch h⟩

theorem isGuarded_of_not_isOwned {e : Entity} (h : e.isOwned = false) : e.isGuarded = true := by
  cases e <;> first | rfl | cases h

theorem isOwned_of_role {e : Entity} (h : e.role = .ownedObject) : e.isOwned = true := by
  cases e <;> first | rfl | cases h

end Entity

namespace Node

variable {n : Node}

/-- One for what owns an object. -/
def keeps (z : Id) (n : Node) : Nat := if n.live = true ∧ n.entity.keeps? = some z then 1 else 0

/-- One for an owned object that exists. -/
def presence (n : Node) : Nat := if n.live = true ∧ n.entity.role = .ownedObject then 1 else 0

theorem keeps_of_not_isOwned (h : n.entity.isOwned = false) (z : Id) : n.keeps z = 0 := by
  rw [keeps, Entity.keeps?_of_not_isOwned h]
  exact if_neg fun h => nomatch h.2

theorem presence_of_not_isOwned (h : n.entity.isOwned = false) : n.presence = 0 := by
  refine if_neg fun hrole => ?_
  rw [Entity.isOwned_of_role hrole.2] at h
  cases h

/-- What the entity at `x` adds to the loose objects. -/
def share (x z : Id) (n : Node) : Int := credit (some x) n.presence z - n.keeps z

theorem share_of_not_isOwned (h : n.entity.isOwned = false) (x z : Id) : n.share x z = 0 := by
  rw [share, presence_of_not_isOwned h, keeps_of_not_isOwned h]
  simp [credit]

theorem share_of_not_live (h : n.live = false) (x z : Id) : n.share x z = 0 := by
  simp [share, presence, keeps, h, credit]

/-- An object that exists is loose, as far as it goes. -/
theorem share_object (hlive : n.live = true) (hr : n.entity.role = .ownedObject) (x z : Id) :
    n.share x z = credit (some x) 1 z := by
  have hkeeps : n.entity.keeps? = none := by
    cases he : n.entity <;> rw [he] at hr <;> first | rfl | cases hr
  simp [share, presence, keeps, hlive, hr, hkeeps]

/-- A wrapper holds what it owns. -/
theorem share_wrapper {name : String} (v : OwnedWrapper) (x z : Id) :
    Node.share x z ⟨name, .ownedWrapper v, true⟩ =
      -credit (if v.owns then v.object else none) 1 z := by
  simp only [share, presence, keeps, Entity.keeps?, Entity.role, credit]
  split <;> simp

end Node

namespace Store

variable {st st' st₁ : Store} {x : Id} {n : Node} {f : Node → Node} {δ : Id → Int} {gone : List Id}

/-! ## Loose objects -/

/-- The wrappers that own an object. -/
def keepers (st : Store) (z : Id) : Nat := st.total (Node.keeps z)

def presence (st : Store) (z : Id) : Nat := (st.get? z).elim 0 Node.presence

/-- One for an owned object that exists, less the wrappers that own it. -/
def loose (st : Store) (z : Id) : Int := st.presence z - st.keepers z

theorem presence_eq (hn : st.get? x = some n) : st.presence x = n.presence := by
  rw [presence, hn]
  rfl

theorem loose_modify (hn : st.get? x = some n) (z : Id) :
    (st.modify x f).loose z = st.loose z + ((f n).share x z - n.share x z) := by
  have htotal : (st.modify x f).keepers z + n.keeps z = st.keepers z + (f n).keeps z :=
    total_modify st (Node.keeps z) hn
  have hpresence : ((st.modify x f).presence z : Int) =
      st.presence z + (credit (some x) (f n).presence z - credit (some x) n.presence z) := by
    unfold presence
    rw [get?_modify]
    by_cases h : x = z
    · subst h
      rw [if_pos rfl, hn, credit_self, credit_self]
      simp
    · rw [if_neg h, credit_of_ne (Ne.symm h), credit_of_ne (Ne.symm h)]
      simp
  rw [loose, loose, hpresence, Node.share, Node.share]
  omega

theorem loose_push (n : Node) (z : Id) :
    (st.push n).loose z = st.loose z + n.share st.size z := by
  have htotal : (st.push n).keepers z = st.keepers z + n.keeps z :=
    total_push st (Node.keeps z) n
  have hpresence : ((st.push n).presence z : Int) =
      st.presence z + credit (some st.size) n.presence z := by
    unfold presence
    rw [get?_push]
    by_cases h : z = st.size
    · subst h
      rw [if_pos rfl, get?_size, credit_self]
      simp
    · rw [if_neg h, credit_of_ne h]
      simp
  rw [loose, loose, hpresence, Node.share]
  omega

/-! ## Changes of custody -/

/-- No wrapper that owns nothing can be deleted through its structure. -/
def Guarded (st : Store) : Prop := ∀ x n, st.get? x = some n → n.entity.isGuarded = true

/-- What `gone` lists has ceased to exist, and nothing else on this side that has a single owner.
The loose objects are those of before, changed as `δ` says. -/
structure Custody (st st' : Store) (δ : Id → Int) (gone : List Id) : Prop where
  loose : ∀ z, st'.loose z = st.loose z + δ z
  live : ∀ y n n', st.get? y = some n → st'.get? y = some n' → n.entity.isOwned = true →
    (n'.live = true ↔ n.live = true ∧ y ∉ gone)
  gone : ∀ y ∈ gone, st.IsLive y
  guarded : st.Guarded → st'.Guarded

theorem Custody.refl (st : Store) : st.Custody st 0 [] := by
  refine ⟨fun z => (add_zero _).symm, ?_, nofun, id⟩
  intro y n n' hn hn' _
  cases hn.symm.trans hn'
  exact (and_iff_left List.not_mem_nil).symm

theorem Custody.of_eq {δ' : Id → Int} (h : st.Custody st' δ gone) (hδ : ∀ z, δ z = δ' z) :
    st.Custody st' δ' gone :=
  ⟨fun z => hδ z ▸ h.loose z, h.live, h.gone, h.guarded⟩

theorem Custody.isLive_iff {y : Id} (h : st.Custody st' δ gone) (hc : st.Continues st')
    (hn : st.get? y = some n) (hlive : n.live = true) (ho : n.entity.isOwned = true) :
    st'.IsLive y ↔ y ∉ gone := by
  obtain ⟨n', hn', -⟩ := hc y n hn
  have hiff := h.live y n n' hn hn' ho
  constructor
  · rintro ⟨m, hm, hmlive⟩
    cases hn'.symm.trans hm
    exact (hiff.mp hmlive).2
  · exact fun hy => ⟨n', hn', hiff.mpr ⟨hlive, hy⟩⟩

theorem Guarded.modify (h : st.Guarded)
    (hf : ∀ n, st.get? x = some n → n.entity.isGuarded = true → (f n).entity.isGuarded = true) :
    (st.modify x f).Guarded := by
  intro y m hm
  rw [get?_modify] at hm
  split at hm
  · rename_i hxy
    subst hxy
    obtain ⟨n, hn, rfl⟩ := Option.map_eq_some_iff.mp hm
    exact hf n hn (h x n hn)
  · exact h y m hm

/-- One more entity ceases to exist. A structure of the far side stays, but counts as gone. -/
theorem Custody.modify (h : st.Custody st₁ δ gone) (hn : st.get? x = some n)
    (hn₁ : st₁.get? x = some n) (hlive : n.live = true)
    (hf : (f n).live = false ∨ n.entity.isOwned = false)
    (hg : n.entity.isGuarded = true → (f n).entity.isGuarded = true) :
    st.Custody (st₁.modify x f) (fun z => δ z + ((f n).share x z - n.share x z)) (x :: gone) := by
  refine ⟨fun z => ?_, ?_, ?_, fun hst => (h.guarded hst).modify ?_⟩
  · rw [loose_modify hn₁, h.loose z, add_assoc]
  · intro y m m' hm hm' howned
    rw [get?_modify] at hm'
    by_cases hxy : x = y
    · subst hxy
      cases hn.symm.trans hm
      rw [if_pos rfl, hn₁] at hm'
      cases hm'
      have hdead := hf.resolve_right (by rw [howned]; decide)
      simp [hdead]
    · rw [if_neg hxy] at hm'
      rw [h.live y m m' hm hm' howned]
      simp [Ne.symm hxy]
  · intro y hy
    rcases List.mem_cons.mp hy with rfl | hy
    · exact ⟨n, hn, hlive⟩
    · exact h.gone y hy
  · intro m hm
    cases hn₁.symm.trans hm
    exact hg

/-- A change of an entity that goes on to exist, if it did. -/
theorem custody_modify (hn : st.get? x = some n) (hlive : (f n).live = n.live)
    (hg : n.entity.isGuarded = true → (f n).entity.isGuarded = true) :
    st.Custody (st.modify x f) (fun z => (f n).share x z - n.share x z) [] := by
  refine ⟨loose_modify hn, ?_, nofun, fun hst => hst.modify ?_⟩
  · intro y m m' hm hm' _
    rw [and_iff_left List.not_mem_nil]
    rw [get?_modify] at hm'
    split at hm'
    · rename_i hxy
      subst hxy
      cases hn.symm.trans hm
      rw [hn] at hm'
      cases hm'
      rw [hlive]
    · cases hm.symm.trans hm'
      exact Iff.rfl
  · intro m hm
    cases hn.symm.trans hm
    exact hg

theorem custody_push (hg : n.entity.isGuarded = true) :
    st.Custody (st.push n) (fun z => n.share st.size z) [] := by
  refine ⟨loose_push n, ?_, nofun, ?_⟩
  · intro y m m' hm hm' _
    rw [get?_push, if_neg (Nat.ne_of_lt (lt_size hm))] at hm'
    cases hm.symm.trans hm'
    exact (and_iff_left List.not_mem_nil).symm
  · intro hst y m hm
    rw [get?_push] at hm
    split at hm
    · cases hm
      exact hg
    · exact hst y m hm

/-! ## The same owned entities -/

/-- An entity, if it is one of this side that has a single owner. -/
def owned (st : Store) (x : Id) : Option Node := (st.get? x).filter fun n => n.entity.isOwned

theorem owned_eq_some : st.owned x = some n ↔ st.get? x = some n ∧ n.entity.isOwned = true :=
  Option.filter_eq_some_iff

end Store

namespace World

variable {w w' : World} {x : Id} {n : Node} {f : Node → Node}

/-- What has a single owner on this side is as it was. -/
structure Apart (w w' : World) : Prop where
  owned : w'.store.owned = w.store.owned
  loose : w'.store.loose = w.store.loose

instance : IsPreorder World Apart where
  refl _ := ⟨rfl, rfl⟩
  trans _ _ _ h h' := ⟨h'.owned.trans h.owned, h'.loose.trans h.loose⟩

theorem Quiet.apart (h : w.Quiet w') : w.Apart w' :=
  ⟨by rw [h.store], by rw [h.store]⟩

theorem Apart.custody (h : w.Apart w') : w.store.Custody w'.store 0 [] := by
  have same {y : Id} {n : Node} (hn : w'.store.get? y = some n) (ho : n.entity.isOwned = true) :
      w.store.get? y = some n := by
    have howned := Store.owned_eq_some.mpr ⟨hn, ho⟩
    rw [h.owned] at howned
    exact (Store.owned_eq_some.mp howned).1
  refine ⟨fun z => ?_, ?_, nofun, ?_⟩
  · rw [h.loose]
    exact (add_zero _).symm
  · intro y n n' hn hn' ho
    have howned := Store.owned_eq_some.mpr ⟨hn, ho⟩
    rw [← h.owned] at howned
    cases (Store.owned_eq_some.mp howned).1.symm.trans hn'
    exact (and_iff_left List.not_mem_nil).symm
  · intro hguarded y n hn
    cases ho : n.entity.isOwned with
    | true => exact hguarded y n (same hn ho)
    | false => exact Entity.isGuarded_of_not_isOwned ho

end World

end ObjectBoundary
