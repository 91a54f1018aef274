import ObjectBoundary.Proofs.Acts.Towers
import ObjectBoundary.Proofs.Acts.Transfers
import ObjectBoundary.Proofs.Ownership.Disposal

/-!
# Towers with a single owner

An owned object that crosses the boundary for good, back and forth, is the bottom of a *tower* of
wrappers and proxies, each of which owns what is below it. Calls go down the whole tower, and so
does disposal. To get at the object, the layers are taken off one by one.

* `Store.OwnedTower`: an entity on top of such a tower, and the object at its bottom.
* `OwnedTower.yields_answer`, `OwnedTower.yields_call`: the top answers as the bottom does.
* `OwnedTower.makes_dispose`, `OwnedTower.makes_call`: the tower is destroyed with its top.
* `OwnedTower.standing_disposed`, `OwnedTower.standing_unlinked`: what happens to the bottom.
* `ProxyClass.makes_surrender`, `OwnedClass.makes_takeBack_unlinked`: a layer gives what is below
  it up and is destroyed alone.
-/

namespace ObjectBoundary

open Act

variable {w : World} {st : Store} {x y bottom : Id} {o : LocalObject} {P : OwnedWrapper → Prop}

/-! ## Towers -/

/-- The structure of a wrapper has the members that its class installs, all of them within the
recorded size. -/
structure OwnedWrapper.IsWhole (v : OwnedWrapper) : Prop where
  set : v.struct.set = (v.cls.newStruct v.owns).set
  size : v.cls.layout.byteSize ≤ v.struct.size.toNat

/-- Then an owning wrapper can be deleted and asked for its value. -/
theorem OwnedWrapper.IsWhole.offers {v : OwnedWrapper} (h : v.IsWhole) (howns : v.owns = true)
    (hcls : v.cls = .client ∨ v.cls = .child) {i : Nat} (hi : i < 2) :
    v.struct.offers i = true := by
  obtain ⟨hset, hsize⟩ := h
  rw [howns] at hset
  have hbytes : 24 ≤ v.struct.size.toNat := by
    refine le_trans ?_ hsize
    rcases hcls with hcls | hcls <;> rw [hcls] <;> decide
  apply Structure.offers_of_isSet
  · apply Structure.isSet_of_set
    rw [hset]
    rcases hcls with hcls | hcls <;> rw [hcls] <;> decide +revert
  · unfold Layout.wordSize
    omega

/-- Whether an entity carries an owned object or structure. -/
def Entity.isLayer : Entity → Bool
  | .ownedWrapper _ | .ownedProxy _ => true
  | _ => false

namespace Store

/-- An entity on top of a tower of wrappers that own their objects and proxies that still have
their structures, with the object at the bottom. Something holds of all wrappers. -/
inductive OwnedTower (st : Store) (P : OwnedWrapper → Prop) (bottom : Id) (o : LocalObject) :
    Id → Prop
  | object {name : String} : st.get? bottom = some ⟨name, .ownedObject o, true⟩ →
    o.behavior.isClient = true → st.OwnedTower P bottom o bottom
  | wrapper {x y : Id} {name : String} {v : OwnedWrapper} :
    st.get? x = some ⟨name, .ownedWrapper v, true⟩ → v.cls = .client ∨ v.cls = .child →
      v.owns = true → v.object = some y → P v → st.OwnedTower P bottom o y →
      st.OwnedTower P bottom o x
  | proxy {x y : Id} {name : String} {p : OwnedProxy} :
    st.get? x = some ⟨name, .ownedProxy p, true⟩ → p.target = some y →
      st.OwnedTower P bottom o y → st.OwnedTower P bottom o x

/-- Where some entities are as in a tower, a change of its top leaves them so below. -/
theorem get?_modify_above (hs : st.Sound) {st' : Store} (hlt : y < x)
    (hsame : ∀ z ∈ x :: st.chain y, st'.get? z = st.get? z) (f : Node → Node) :
    ∀ z ∈ st.chain y, (st'.modify x f).get? z = st.get? z := by
  intro z hz
  have hle : z ≤ y := chain_le hs.earlier y z hz
  rw [get?_modify, if_neg (Nat.ne_of_gt (Nat.lt_of_le_of_lt hle hlt))]
  exact hsame z (List.mem_cons_of_mem x hz)

theorem modify_retired {n : Node} (hn : st.get? x = some n)
    (hd : { n with live := false } = n.disposed) :
    (st.modify x fun n => { n with live := false }) = st.modify x Node.disposed :=
  modify_congr fun m hm => by
    cases hn.symm.trans hm
    exact hd

namespace OwnedTower

/-- What is preserved by every layer, whichever kind it is, holds of the top. -/
@[elab_as_elim]
theorem layered {motive : ∀ x, st.OwnedTower P bottom o x → Prop}
    (object : ∀ (name : String) (h : st.OwnedTower P bottom o bottom),
      st.get? bottom = some ⟨name, .ownedObject o, true⟩ → o.behavior.isClient = true →
        motive bottom h)
    (layer : ∀ (x y : Id) (n : Node) (h : st.OwnedTower P bottom o x)
      (h' : st.OwnedTower P bottom o y), st.get? x = some n → n.live = true →
        n.entity.isLayer = true → n.entity.below? = some y → motive y h' → motive x h)
    {x : Id} (h : st.OwnedTower P bottom o x) : motive x h := by
  induction h with
  | object hn hclient => exact object _ _ hn hclient
  | wrapper hn hcls howns hy hP h ih =>
    exact layer _ _ _ (.wrapper hn hcls howns hy hP h) h hn rfl rfl hy ih
  | proxy hn hy h ih => exact layer _ _ _ (.proxy hn hy h) h hn rfl rfl hy ih

theorem get?_bottom (h : st.OwnedTower P bottom o x) :
    ∃ name, st.get? bottom = some ⟨name, .ownedObject o, true⟩ := by
  induction h using layered with
  | object name _ hn _ => exact ⟨name, hn⟩
  | layer _ _ _ _ _ _ _ _ _ ih => exact ih

theorem chain_bottom (hs : st.Sound) {name : String}
    (hn : st.get? bottom = some ⟨name, .ownedObject o, true⟩) : st.chain bottom = [bottom] := by
  rw [chain_eq_cons hs.earlier, below?_eq_some hn]
  rfl

/-- The chain of a tower ends at its bottom. -/
theorem chain_eq (h : st.OwnedTower P bottom o x) (hs : st.Sound) :
    ∃ layers, st.chain x = layers ++ [bottom] := by
  induction h using layered with
  | object name _ hn _ => exact ⟨[], chain_bottom hs hn⟩
  | layer x y n _ _ hn _ _ hy ih =>
    obtain ⟨layers, hlayers⟩ := ih
    exact ⟨x :: layers, by rw [chain_of_below hs.earlier hn hy, hlayers, List.cons_append]⟩

theorem mem_chain_bottom (h : st.OwnedTower P bottom o x) (hs : st.Sound) :
    bottom ∈ st.chain x := by
  obtain ⟨layers, hlayers⟩ := h.chain_eq hs
  rw [hlayers]
  exact List.mem_append_right _ List.mem_cons_self

/-- All entities of a tower but the bottom are layers. -/
theorem mem_dropLast_iff (h : st.OwnedTower P bottom o x) (hs : st.Sound) {z : Id} :
    z ∈ (st.chain x).dropLast ↔ z ∈ st.chain x ∧ z ≠ bottom := by
  obtain ⟨layers, hlayers⟩ := h.chain_eq hs
  have hnodup := chain_nodup hs.earlier x
  rw [hlayers] at hnodup ⊢
  have hbottom : bottom ∉ layers := fun hmem =>
    (List.nodup_append.mp hnodup).2.2 _ hmem _ List.mem_cons_self rfl
  rw [List.dropLast_concat, List.mem_append, List.mem_singleton]
  constructor
  · exact fun hz => ⟨Or.inl hz, fun heq => hbottom (heq ▸ hz)⟩
  · exact fun ⟨hz, hne⟩ => hz.resolve_right hne

/-- All layers exist, and they are wrappers and proxies. -/
theorem exists_of_mem (h : st.OwnedTower P bottom o x) (hs : st.Sound) {z : Id}
    (hz : z ∈ st.chain x) (hne : z ≠ bottom) :
    ∃ n, st.get? z = some n ∧ n.live = true ∧ n.entity.isLayer = true := by
  induction h using layered with
  | object name _ hn _ =>
    rw [chain_bottom hs hn] at hz
    exact absurd (List.mem_singleton.mp hz) hne
  | layer x y n _ _ hn hlive hlayer hy ih =>
    rw [chain_of_below hs.earlier hn hy] at hz
    rcases List.mem_cons.mp hz with rfl | hz
    · exact ⟨n, hn, hlive, hlayer⟩
    · exact ih hz

/-- The object at the bottom has a value. -/
theorem exists_value (h : st.OwnedTower P bottom o x) : ∃ r, o.behavior.answer? 0 = some r := by
  induction h using layered with
  | object _ _ _ hclient =>
    obtain ⟨behavior, claim⟩ := o
    cases behavior with
    | client r => exact ⟨r, rfl⟩
    | child r other => exact ⟨r, rfl⟩
    | table r => cases hclient
  | layer _ _ _ _ _ _ _ _ _ ih => exact ih

/-! What stands on top tells how the tower goes on. -/

theorem of_object {name : String} {o' : LocalObject} (h : st.OwnedTower P bottom o x)
    (hx : st.get? x = some ⟨name, .ownedObject o', true⟩) : x = bottom := by
  cases h with
  | object hn _ => rfl
  | wrapper hn _ _ _ _ _ => cases hx.symm.trans hn
  | proxy hn _ _ => cases hx.symm.trans hn

theorem of_proxy {name : String} {p : OwnedProxy} (h : st.OwnedTower P bottom o x)
    (hx : st.get? x = some ⟨name, .ownedProxy p, true⟩) (hy : p.target = some y) :
    st.OwnedTower P bottom o y := by
  cases h with
  | object hn _ => cases hx.symm.trans hn
  | wrapper hn _ _ _ _ _ => cases hx.symm.trans hn
  | proxy hn hy' h =>
    cases hx.symm.trans hn
    cases hy.symm.trans hy'
    exact h

theorem of_wrapper {name : String} {v : OwnedWrapper} (h : st.OwnedTower P bottom o x)
    (hx : st.get? x = some ⟨name, .ownedWrapper v, true⟩) (hy : v.object = some y) :
    v.owns = true ∧ st.OwnedTower P bottom o y := by
  cases h with
  | object hn _ => cases hx.symm.trans hn
  | proxy hn _ _ => cases hx.symm.trans hn
  | wrapper hn _ howns hy' _ h =>
    cases hx.symm.trans hn
    cases hy.symm.trans hy'
    exact ⟨howns, h⟩

/-- A structure on top of a tower is that of a wrapper. -/
theorem of_structure (h : st.OwnedTower P bottom o x) (hr : st.HasRole x .ownedStructure) :
    ∃ y name v, st.get? x = some ⟨name, .ownedWrapper v, true⟩ ∧
      (v.cls = .client ∨ v.cls = .child) ∧ v.owns = true ∧ v.object = some y ∧ P v ∧
      st.OwnedTower P bottom o y := by
  obtain ⟨n, hn, hrole⟩ := hr
  cases h with
  | object hx _ => cases hn.symm.trans hx; cases hrole
  | wrapper hx hcls howns hy hP h => exact ⟨_, _, _, hx, hcls, howns, hy, hP, h⟩
  | proxy hx _ _ => cases hn.symm.trans hx; cases hrole

/-- Below a proxy there is a wrapper with its members. -/
theorem target {name : String} {p : OwnedProxy} (h : st.OwnedTower OwnedWrapper.IsWhole bottom o y)
    (hs : st.Sound) (hx : st.get? x = some ⟨name, .ownedProxy p, true⟩)
    (hy : p.target = some y) :
    ∃ name v, st.get? y = some ⟨name, .ownedWrapper v, true⟩ ∧
      v.struct.hasMember Layout.ownedFirst = true ∧ ∀ i < 2, v.struct.offers i = true := by
  obtain ⟨-, name, v, hv, hcls, howns, -, hwhole, -⟩ := h.of_structure (hs.linked x _ y hx hy).2
  have hmember : v.struct.hasMember Layout.ownedFirst = true :=
    (hs.formed y _ hv).hasMember rfl (Nat.le_refl _)
  exact ⟨name, v, hv, hmember, fun i hi => hwhole.offers howns hcls hi⟩

/-! ## Values -/

section Values

variable {r : Int32} (hr : o.behavior.answer? 0 = some r)
include hr

theorem yields_answerAlong (h : st.OwnedTower OwnedWrapper.IsWhole bottom o x) (hs : st.Sound)
    (hw : w.store = st) (ht : w.IsTolerant) : Yields (answerAlong 0 (st.chain x)) w r := by
  induction h generalizing w with
  | object hn _ =>
    rw [chain_bottom hs hn]
    refine yields_entity_bind (hw ▸ hn) rfl ?_
    show Yields (ofOption .wrongKind (o.behavior.answer? 0)) w r
    rw [hr]
    exact yields_pure r w
  | wrapper hn _ _ hy _ _ ih =>
    rw [chain_of_below hs.earlier hn hy]
    refine yields_entity_bind (hw ▸ hn) rfl (yields_running_bind ht fun w₁ h₁ => ?_)
    refine yields_running_bind (h₁.isTolerant ht) fun w₂ h₂ => ?_
    have hq := trans_of World.Quiet h₁ h₂
    exact ih (hq.store.trans hw) (hq.isTolerant ht)
  | proxy hn hy h ih =>
    obtain ⟨_, v, hv, hmember, hoffers⟩ := h.target hs hn hy
    rw [chain_of_below hs.earlier hn hy]
    refine yields_entity_bind (hw ▸ hn) rfl (yields_running_bind ht fun w₁ h₁ => ?_)
    have hw₁ : w₁.store = st := h₁.store.trans hw
    simp only [hy]
    exact yields_throughOffered (hw₁ ▸ hv) rfl rfl (hoffers 1 (by decide)) hmember
      (ih hw₁ (h₁.isTolerant ht))

/-- On top of a tower the value of the bottom is found. -/
theorem yields_answer (h : w.store.OwnedTower OwnedWrapper.IsWhole bottom o x) (hs : w.store.Sound)
    (ht : w.IsTolerant) : Yields (answer 0 x) w r :=
  yields_get_bind (h.yields_answerAlong hr hs rfl ht)

/-- So it is through the structure on top. -/
theorem yields_call (h : w.store.OwnedTower OwnedWrapper.IsWhole bottom o x) (hs : w.store.Sound)
    (ht : w.IsTolerant) (hrole : w.store.HasRole x .ownedStructure) :
    Yields (call x Layout.ownedFirst (some x)) w (.number r) := by
  obtain ⟨y, name, v, hx, hcls, howns, hy, hwhole, hbelow⟩ := h.of_structure hrole
  have hmember : Yields (interfaceMember v.cls.tag (some x) 0) w r := by
    refine yields_running_bind ht fun w₁ h₁ => ?_
    rw [Option.isSome_some, require_true, pure_bind]
    have hx₁ : w₁.store.get? x = _ := h₁.store ▸ hx
    refine yields_bind (yields_objectOf hx₁ rfl rfl (h₁.isTolerant ht)) fun w₂ h₂ => ?_
    have hq := trans_of World.Quiet h₁ h₂
    simp only [Entity.below?, hy]
    rw [← hq.store] at hbelow hs
    exact hbelow.yields_answer hr hs (hq.isTolerant ht)
  refine yields_entity_bind hx rfl (yields_ofOption_bind rfl ?_)
  rw [if_pos (Structure.isSet_of_offers (hwhole.offers howns hcls (by decide)))]
  exact yields_contained (yields_map hmember Act.Reply.number)

end Values

/-! ## Disposal -/

/-- An entity ceases to exist, and so does what it owns. -/
theorem makes_retire_running {f : Act Unit} {ys : List Id} {n : Node} (hn : w.store.get? x = some n)
    (hd : { n with live := false } = n.disposed) (ht : w.IsTolerant)
    (hf : ∀ w₁ : World, w₁.IsTolerant → w₁.store = w.store.modify x Node.disposed →
      Makes f w₁ () (w₁.store.modifyAll ys Node.disposed)) :
    Makes (retire x >>= fun _ => requireRunning >>= fun _ => f) w ()
      (w.store.modifyAll (x :: ys) Node.disposed) := by
  refine makes_bind (makes_retire x) fun w₁ h₁ => ?_
  have ht₁ : w₁.IsTolerant := h₁.isTolerant ht
  refine makes_yields_bind (yields_requireRunning ht₁) fun w₂ h₂ => ?_
  have hstore : w₂.store = w.store.modify x Node.disposed :=
    h₂.store.trans (h₁.store.trans (modify_retired hn hd))
  have hrest := hf w₂ (h₂.isTolerant ht₁) hstore
  rwa [hstore, modifyAll_modify] at hrest

/-- Disposal goes down a tower to its bottom, also where what is above was destroyed before. -/
theorem makes_disposeAlong (h : st.OwnedTower OwnedWrapper.IsWhole bottom o x) (hs : st.Sound)
    (hsame : ∀ y ∈ st.chain x, w.store.get? y = st.get? y) (ht : w.IsTolerant) :
    Makes (disposeAlong (st.chain x)) w () (w.store.modifyAll (st.chain x) Node.disposed) := by
  induction h generalizing w with
  | object hn _ =>
    rw [chain_bottom hs hn] at hsame ⊢
    have hn' := (hsame bottom List.mem_cons_self).trans hn
    refine makes_entity_bind hn' rfl (makes_bind (makes_retire bottom) fun w₁ h₁ phase => ?_)
    exact ⟨_, rfl, h₁.store.trans (modify_retired hn' rfl), rfl, rfl⟩
  | @wrapper x y name v hn _ howns hy _ _ ih =>
    rw [chain_of_below hs.earlier hn hy] at hsame ⊢
    have hn' := (hsame x List.mem_cons_self).trans hn
    have hlt := (hs.linked x _ y hn hy).1
    refine makes_entity_bind hn' rfl (makes_retire_running hn' rfl ht fun w₁ ht₁ hw₁ => ?_)
    rw [howns, hy]
    exact ih (hw₁ ▸ get?_modify_above hs hlt hsame _) ht₁
  | @proxy x y name p hn hy h ih =>
    rw [chain_of_below hs.earlier hn hy] at hsame ⊢
    have hn' := (hsame x List.mem_cons_self).trans hn
    have hlt := (hs.linked x _ y hn hy).1
    obtain ⟨_, v, hv, -, hoffers⟩ := h.target hs hn hy
    refine makes_entity_bind hn' rfl (makes_retire_running hn' rfl ht fun w₁ ht₁ hw₁ => ?_)
    have hsame₁ : ∀ z ∈ st.chain y, w₁.store.get? z = st.get? z :=
      hw₁ ▸ get?_modify_above hs hlt hsame _
    simp only [hy]
    have hv₁ := (hsame₁ y (mem_chain_self hs.earlier y)).trans hv
    have hset : v.struct.isSet Layout.del = true :=
      Structure.isSet_of_offers (hoffers 0 (by decide))
    exact makes_through hv₁ rfl rfl hset (ih hsame₁ ht₁)

/-- A tower is destroyed with its top. -/
theorem makes_dispose (h : w.store.OwnedTower OwnedWrapper.IsWhole bottom o x) (hs : w.store.Sound)
    (ht : w.IsTolerant) :
    Makes (dispose x) w () (w.store.modifyAll (w.store.chain x) Node.disposed) := by
  intro phase
  exact h.makes_disposeAlong hs (fun _ _ => rfl) ht phase

/-- So it is if the structure on top is deleted. -/
theorem makes_call (h : w.store.OwnedTower OwnedWrapper.IsWhole bottom o x) (hs : w.store.Sound)
    (ht : w.IsTolerant) (hrole : w.store.HasRole x .ownedStructure) :
    Makes (call x Layout.del (some x)) w .nothing
      (w.store.modifyAll (w.store.chain x) Node.disposed) := by
  obtain ⟨y, name, v, hx, hcls, howns, -, hwhole, -⟩ := h.of_structure hrole
  have hmember : Makes (baseMember v.cls.tag (some x) () dispose) w ()
      (w.store.modifyAll (w.store.chain x) Node.disposed) := by
    unfold baseMember
    rw [Option.isSome_some, require_true, pure_bind]
    refine makes_yields_bind (yields_recognises hx rfl rfl) fun w₁ h₁ => ?_
    rw [← h₁.store] at h hs ⊢
    exact h.makes_dispose hs (h₁.isTolerant ht)
  have hset := Structure.isSet_of_offers (hwhole.offers (i := Layout.del) howns hcls (by decide))
  refine makes_entity_bind hx rfl ?_
  show Makes (if v.struct.isSet Layout.del then contained (ownedMember v.cls 0 (some x))
    else pure .absent) w .nothing _
  rw [if_pos hset]
  exact makes_contained (makes_map hmember fun _ => Act.Reply.nothing)

end OwnedTower

end Store

/-! ## Layers that are taken off -/

/-- An owned wrapper or proxy without what was below it. -/
def Entity.unlinked : Entity → Entity
  | .ownedWrapper v => .ownedWrapper { v with object := none }
  | .ownedProxy p => .ownedProxy { p with target := none }
  | e => e

/-- An entity that has lost its link, and ceased to exist with that. -/
def Node.unlinked (n : Node) : Node := ⟨n.name, n.entity.unlinked, false⟩

/-- No object is destroyed with a layer. -/
theorem Node.standing_unlinked {n : Node} (h : n.entity.isLayer = true) :
    n.unlinked.standing = n.standing := by
  obtain ⟨name, e, live⟩ := n
  cases e <;> first | rfl | cases h

theorem Node.live_disposed {n : Node} (h : n.entity.isLayer = true) : n.disposed.live = false := by
  obtain ⟨name, e, live⟩ := n
  cases e <;> first | rfl | cases h

theorem Node.standing_disposed {n : Node} (h : n.entity.isLayer = true) :
    n.disposed.standing = n.standing := by
  obtain ⟨name, e, live⟩ := n
  cases e <;> first | rfl | cases h

namespace Store

/-- An entity that is changed counts among the objects that stand as it did before. -/
theorem standing_of_map {st' : Store} {n : Node} {f : Node → Node} (hn : st.get? x = some n)
    (hx : st'.get? x = (st.get? x).map f) (hf : (f n).standing = n.standing) :
    st'.standing x = st.standing x := by
  unfold standing
  rw [hx, hn]
  exact hf

theorem standing_of_get? {st' : Store} (hx : st'.get? x = st.get? x) :
    st'.standing x = st.standing x := by
  unfold standing
  rw [hx]

namespace OwnedTower

variable (h : st.OwnedTower P bottom o x) (hs : st.Sound)
include h hs

/-- Nothing is left of a tower that was destroyed. -/
theorem not_isLive_disposed (hy : y ∈ st.chain x) :
    ¬ (st.modifyAll (st.chain x) Node.disposed).IsLive y := by
  rintro ⟨n, hn, hlive⟩
  rw [get?_modifyAll (chain_nodup hs.earlier x), if_pos hy] at hn
  by_cases hne : y = bottom
  · obtain ⟨_, hbottom⟩ := h.get?_bottom
    rw [hne, hbottom] at hn
    cases hn
    cases hlive
  · obtain ⟨m, hm, -, hlayer⟩ := h.exists_of_mem hs hy hne
    rw [hm] at hn
    cases hn
    exact absurd (hlive.symm.trans (Node.live_disposed hlayer)) Bool.noConfusion

/-- The only object that falls with a tower is its bottom. -/
theorem standing_disposed (y : Id) :
    (if y = bottom then 1 else 0) + (st.modifyAll (st.chain x) Node.disposed).standing y =
      st.standing y := by
  have hget : (st.modifyAll (st.chain x) Node.disposed).get? y = _ :=
    get?_modifyAll (chain_nodup hs.earlier x) st _ y
  by_cases hne : y = bottom
  · obtain ⟨_, hbottom⟩ := h.get?_bottom
    rw [if_pos (hne ▸ h.mem_chain_bottom hs), hne, hbottom] at hget
    unfold standing
    rw [if_pos hne, hne, hget, hbottom]
    rfl
  · rw [if_neg hne, Nat.zero_add]
    by_cases hy : y ∈ st.chain x
    · obtain ⟨n, hn, -, hlayer⟩ := h.exists_of_mem hs hy hne
      rw [if_pos hy] at hget
      exact standing_of_map hn hget (Node.standing_disposed hlayer)
    · rw [if_neg hy] at hget
      exact standing_of_get? hget

/-- No object falls if the layers are taken off. -/
theorem standing_unlinked (y : Id) :
    (st.modifyAll (st.chain x).dropLast Node.unlinked).standing y = st.standing y := by
  have hnodup := (chain_nodup hs.earlier x).sublist (List.dropLast_sublist _)
  have hget : (st.modifyAll (st.chain x).dropLast Node.unlinked).get? y = _ :=
    get?_modifyAll hnodup st _ y
  by_cases hy : y ∈ (st.chain x).dropLast
  · obtain ⟨hmem, hne⟩ := (h.mem_dropLast_iff hs).mp hy
    obtain ⟨n, hn, -, hlayer⟩ := h.exists_of_mem hs hmem hne
    rw [if_pos hy] at hget
    exact standing_of_map hn hget (Node.standing_unlinked hlayer)
  · rw [if_neg hy] at hget
    exact standing_of_get? hget

end OwnedTower

end Store

theorem Store.modify_unlinked {e : Entity} {name : String}
    (hx : st.get? x = some ⟨name, e, true⟩) :
    (st.modify x fun n => ⟨n.name, e.unlinked, false⟩) = st.modify x Node.unlinked :=
  modify_congr fun m hm => by
    cases hx.symm.trans hm
    rfl

namespace ProxyClass

/-- The class of wrappers that owned objects of the interface of a class of proxies get. -/
def ownedClass : ProxyClass → OwnedClass
  | client => .client
  | child => .child

theorem interface_ownedClass (c : ProxyClass) : c.ownedClass.interface = c.ownedInterface := by
  cases c <;> rfl

section Surrender

variable {name : String} {p : OwnedProxy} {m : Node} {t : Structure}
  (hx : w.store.get? x = some ⟨name, .ownedProxy p, true⟩) (hy : p.target = some y)
  (hm : w.store.get? y = some m) (hlive : m.live = true) (ht : m.entity.struct? = some t)
  (hset : t.isSet Layout.del = true) (htol : w.IsTolerant)
include hx hy hm hlive ht hset htol

theorem makes_extract :
    Makes (p.cls.extract x) w (some y) (w.store.modify x Node.unlinked) := by
  have hne : x ≠ y := by
    rintro rfl
    cases hx.symm.trans hm
    cases ht
  have hproxy : Yields (p.cls.ownedProxy x) w p := by
    refine yields_entity_bind hx rfl ?_
    show Yields (if p.cls = p.cls then pure p else _) w p
    rw [if_pos rfl]
    exact yields_pure p w
  refine makes_yields_bind hproxy fun w₁ h₁ => makes_bind (makes_put x _) fun w₂ h₂ => ?_
  rw [← h₁.store] at hx hm ⊢
  have hunlinked : (w₁.store.modify x fun n =>
      ⟨n.name, .ownedProxy { p with target := none }, false⟩) =
      w₁.store.modify x Node.unlinked := Store.modify_unlinked hx
  rw [← hunlinked]
  have hm₂ : w₂.store.get? y = some m := by
    rw [h₂.store, Store.get?_modify, if_neg hne]
    exact hm
  refine makes_ensuring ?_ fun w₃ h₃ =>
    makes_dispose_unlinked hx rfl (h₂.trans h₃) (h₁.isTolerant htol)
  rw [← h₂.store, hy]
  simp only [Option.isSome_some, require_true, pure_bind]
  unfold struct
  rw [bind_assoc]
  refine makes_entity_bind hm₂ hlive ?_
  rw [ht]
  show Makes (require (t.isSet Layout.del) .undeletable >>= _) w₂ _ _
  rw [hset, require_true, pure_bind]
  exact makes_crossed rfl

/-- A proxy gives its structure up and is destroyed, and all else stays. -/
theorem makes_surrender {c : ProxyClass} (hc : c.Recovers p.cls) :
    Makes (c.surrender x) w (some y) (w.store.modify x Node.unlinked) := by
  refine makes_bind (makes_onUnwind (makes_of_yields (yields_requireRunning htol))) fun w₁ h₁ => ?_
  have ht₁ : w₁.IsTolerant := h₁.isTolerant htol
  rw [← h₁.store] at hx hm ⊢
  refine makes_entity_bind hx rfl ?_
  show Makes (if p.cls.ownedTag = c.ownedTag then c.extract x else _) w₁ _ _
  rcases hc with rfl | ⟨rfl, hchild⟩
  · rw [if_pos rfl]
    exact makes_extract hx hy hm hlive ht hset ht₁
  · have hne : child.ownedTag ≠ client.ownedTag := by decide
    have hderived : client.ownedDerived? child.ownedTag = some p.cls := by rw [hchild]; rfl
    rw [hchild, if_neg hne, hderived]
    refine makes_bind (makes_onUnwind (makes_of_yields (yields_requireRunning ht₁)))
      fun w₂ h₂ => ?_
    rw [← h₂.store] at hx hm ⊢
    exact makes_extract hx hy hm hlive ht hset (h₂.isTolerant ht₁)

end Surrender

end ProxyClass

/-- A wrapper gives its object up and is destroyed, and all else stays. -/
theorem OwnedClass.makes_takeBack_unlinked {c : OwnedClass} {name : String} {v : OwnedWrapper}
    (hx : w.store.get? x = some ⟨name, .ownedWrapper v, true⟩) (hc : c.Recovers v.cls)
    (howns : v.owns = true) (hy : v.object = some y) (ht : w.IsTolerant) :
    Makes (c.takeBack x) w (some y) (w.store.modify x Node.unlinked) := by
  rw [← Store.modify_unlinked hx]
  exact makes_takeBack hx hc howns hy ht

end ObjectBoundary
