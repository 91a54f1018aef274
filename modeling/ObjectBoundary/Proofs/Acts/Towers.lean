import ObjectBoundary.Act.Answers
import ObjectBoundary.Act.Members
import ObjectBoundary.Inspection
import ObjectBoundary.Shared.Proxy
import ObjectBoundary.Proofs.Acts.Offered
import ObjectBoundary.Proofs.Presence
import ObjectBoundary.Proofs.Yields

/-!
# Towers of wrappers and proxies

An object of this side or a structure of the far side, carried back and forth across the boundary,
is the bottom of a *tower* of wrappers and proxies. Whatever the height, the top answers as the
bottom does, as far as all wrappers in between know the function that is called.

* `Store.Tower`: an entity on top of a tower, and the bottom of the tower.
* `Store.Delivers`: a value that is handed up to the top of a tower.
* `Tower.delivers`, `Tower.delivers_other`: the value of the bottom is, and so is its other value
  through wrappers of the child class.
* `Act.yields_answer`, `Act.yields_ask`: what the top answers, and what it says about references.
* `Act.yields_call_value`, `Act.yields_call_question`: the same through the members of a structure.
-/

namespace ObjectBoundary

open Act

/-! ## The bottom -/

/-- Whether an object has the client interface, be it through the child interface. -/
def Behavior.isClient : Behavior → Bool
  | client _ | child _ _ => true
  | table _ => false

namespace Entity

/-- What the bottom of a tower answers to the interface function at an index. -/
def value? (index : Nat) : Entity → Option Int32
  | sharedObject o => o.object.behavior.answer? index
  | sharedFar f => (f.answers.value? index).map Prod.snd
  | _ => none

/-- What the bottom of a tower says about its references. -/
def tells (q : Question) : Entity → Bool
  | sharedObject o => o.count.answer q
  | sharedFar f => f.answer q != 0
  | _ => false

/-- Whether an object has the child interface. -/
def isChild : Entity → Bool
  | sharedObject ⟨⟨.child _ _, _⟩, _⟩ => true
  | sharedProxy p => decide (p.cls = .child)
  | _ => false

end Entity

/-! ## Towers -/

/-- The structure of a wrapper has the members that its class installs, all of them within the
recorded size. -/
structure SharedWrapper.IsWhole (v : SharedWrapper) : Prop where
  set : v.struct.set = v.cls.newStruct.set
  size : v.cls.layout.byteSize ≤ v.struct.size.toNat

/-- The recorded size of the structure of a wrapper covers no word behind its members. -/
def SharedWrapper.IsBounded (v : SharedWrapper) : Prop :=
  v.struct.size.toNat < v.cls.layout.byteSize + Layout.wordSize

/-- A structure of the far side has all its members. -/
def SharedFar.IsWhole (f : SharedFar) : Prop :=
  ∀ i < Layout.sharedChild.names.length, f.struct.offers i = true

namespace Store

def IsChild (st : Store) (x : Id) : Prop := ∃ n, st.get? x = some n ∧ n.entity.isChild = true

/-- An entity on top of a tower, with the bottom of the tower. Wrappers of the child class are made
of objects that have its interface. -/
inductive Tower (st : Store) : Id → Entity → Prop
  | object {x : Id} {name : String} {o : SharedObject} :
    st.get? x = some ⟨name, .sharedObject o, true⟩ → o.object.behavior.isClient = true →
      st.Tower x (.sharedObject o)
  | far {x : Id} {name : String} {f : SharedFar} :
    st.get? x = some ⟨name, .sharedFar f, true⟩ → f.IsWhole → st.Tower x (.sharedFar f)
  | wrapper {x : Id} {name : String} {v : SharedWrapper} {e : Entity} :
    st.get? x = some ⟨name, .sharedWrapper v, true⟩ →
      v.cls = .client ∨ v.cls = .child ∧ st.IsChild v.object → st.Tower v.object e →
      st.Tower x e
  | proxy {x : Id} {name : String} {p : SharedProxy} {e : Entity} :
    st.get? x = some ⟨name, .sharedProxy p, true⟩ → st.Tower p.target e → st.Tower x e

/-- What holds of all wrappers of a tower. -/
def AllWrappers (st : Store) (P : SharedWrapper → Prop) (x : Id) : Prop :=
  ∀ y ∈ st.chain x, ∀ n v, st.get? y = some n → n.entity = .sharedWrapper v → P v

/-- The structures of all wrappers of a tower have their members. -/
def AllWhole (st : Store) (x : Id) : Prop := st.AllWrappers SharedWrapper.IsWhole x

/-- All wrappers of a tower are of the child class. -/
def ChildOnly (st : Store) (x : Id) : Prop := st.AllWrappers (fun v => v.cls = .child) x

/-- No structure of the client class in a tower seems to have a member behind its last one. -/
def ClientsBounded (st : Store) (x : Id) : Prop :=
  st.AllWrappers (fun v => v.cls = .client → v.IsBounded) x

variable {st : Store} {x y : Id} {n : Node} {P Q : SharedWrapper → Prop}

theorem allWrappers_of_below (hs : st.Sound) (hn : st.get? x = some n)
    (hy : n.entity.below? = some y) :
    st.AllWrappers P x ↔ (∀ v, n.entity = .sharedWrapper v → P v) ∧ st.AllWrappers P y := by
  rw [AllWrappers, chain_of_below hs.earlier hn hy, List.forall_mem_cons]
  refine and_congr ⟨fun h v => h n v hn, fun h m v hm => ?_⟩ Iff.rfl
  cases hn.symm.trans hm
  exact h v

theorem allWrappers_of_bottom (hs : st.Sound) (hn : st.get? x = some n)
    (hy : n.entity.below? = none) (hv : ∀ v, n.entity ≠ .sharedWrapper v) :
    st.AllWrappers P x := by
  intro y hmem m v hm hwrapper
  rw [chain_eq_cons hs.earlier, below?, hn, Option.bind_some, hy] at hmem
  cases List.mem_singleton.mp hmem
  cases hn.symm.trans hm
  exact absurd hwrapper (hv v)

theorem AllWrappers.mono (h : st.AllWrappers P x) (hPQ : ∀ v, P v → Q v) : st.AllWrappers Q x :=
  fun y hy n v hn hv => hPQ v (h y hy n v hn hv)

theorem AllWrappers.self {v : SharedWrapper} (h : st.AllWrappers P x) (hs : st.Sound)
    (hn : st.get? x = some n) (hv : n.entity = .sharedWrapper v) : P v := by
  refine h x ?_ n v hn hv
  rw [chain_eq_cons hs.earlier]
  exact List.mem_cons_self

theorem AllWrappers.below (h : st.AllWrappers P x) (hs : st.Sound) (hn : st.get? x = some n)
    (hy : n.entity.below? = some y) : st.AllWrappers P y :=
  ((allWrappers_of_below hs hn hy).mp h).2

theorem AllWrappers.of_mem (h : st.AllWrappers P x) (hs : st.Sound) (hy : y ∈ st.chain x) :
    st.AllWrappers P y := fun z hz => h z (mem_chain_trans hs.earlier hy hz)

/-- What lies in a tower is on top of a tower itself. -/
theorem Tower.of_mem {e : Entity} (h : st.Tower x e) (hs : st.Sound) (hy : y ∈ st.chain x) :
    st.Tower y e := by
  induction h with
  | object hn hclient =>
    rw [chain_eq_cons hs.earlier, below?, hn] at hy
    cases List.mem_singleton.mp hy
    exact .object hn hclient
  | far hn hwhole =>
    rw [chain_eq_cons hs.earlier, below?, hn] at hy
    cases List.mem_singleton.mp hy
    exact .far hn hwhole
  | wrapper hn hcls h ih =>
    rw [chain_of_below hs.earlier hn rfl] at hy
    rcases List.mem_cons.mp hy with rfl | hy
    · exact .wrapper hn hcls h
    · exact ih hy
  | proxy hn h ih =>
    rw [chain_of_below hs.earlier hn rfl] at hy
    rcases List.mem_cons.mp hy with rfl | hy
    · exact .proxy hn h
    · exact ih hy

end Store

/-! ## Members of the structures in a tower -/

theorem Structure.isSet_of_set {t : Structure} {position : Nat}
    (h : t.set.getD position false = true) : t.isSet position = true := by
  rw [isSet, h, Bool.or_true]

theorem Structure.offers_of_isSet {t : Structure} {position : Nat} (hset : t.isSet position = true)
    (hsize : Layout.wordSize * (position + 2) ≤ t.size.toNat) : t.offers position = true := by
  rw [offers, (covers_iff t position).mpr hsize, hset]
  rfl

namespace SharedWrapper

variable {v : SharedWrapper}

/-- A new structure has the members of its class, and it ends with them. -/
theorem isWhole_of_new (h : v.struct = v.cls.newStruct) : v.IsWhole where
  set := congrArg Structure.set h
  size := by
    rw [h]
    exact Nat.le_of_eq v.cls.isWhole_newStruct.size.symm

theorem isBounded_of_new (h : v.struct = v.cls.newStruct) : v.IsBounded := by
  rw [IsBounded, h, v.cls.isWhole_newStruct.size]
  exact Nat.lt_add_of_pos_right (by decide)

section IsWhole

variable (h : v.IsWhole)
include h

theorem IsWhole.offers_of_client (hcls : v.cls = .client) {i : Nat} (hi : i < 5) :
    v.struct.offers i = true := by
  obtain ⟨hset, hsize⟩ := h
  rw [hcls] at hset hsize
  apply Structure.offers_of_isSet
  · apply Structure.isSet_of_set
    rw [hset]
    decide +revert
  · change 48 ≤ _ at hsize
    unfold Layout.wordSize
    omega

theorem IsWhole.offers_of_child (hcls : v.cls = .child) {i : Nat} (hi : i < 6) :
    v.struct.offers i = true := by
  obtain ⟨hset, hsize⟩ := h
  rw [hcls] at hset hsize
  apply Structure.offers_of_isSet
  · apply Structure.isSet_of_set
    rw [hset]
    decide +revert
  · change 56 ≤ _ at hsize
    unfold Layout.wordSize
    omega

end IsWhole

/-- Wrappers of the client class have no member for the other value. -/
theorem IsBounded.not_offers (h : v.IsBounded) (hcls : v.cls = .client) :
    v.struct.offers 5 = false := by
  have hsize : v.struct.size.toNat < 56 := by
    rw [IsBounded, hcls] at h
    exact h
  rw [← Bool.not_eq_true, Structure.offers_iff]
  rintro ⟨hcovered, -⟩
  exact absurd (Nat.lt_of_le_of_lt hcovered hsize) (by decide)

end SharedWrapper

namespace Store.Tower

variable {st : Store} {x : Id} {e : Entity}

theorem exists_live (h : st.Tower x e) : ∃ n, st.get? x = some n ∧ n.live = true := by
  cases h with
  | object hn _ => exact ⟨_, hn, rfl⟩
  | far hn _ => exact ⟨_, hn, rfl⟩
  | wrapper hn _ _ => exact ⟨_, hn, rfl⟩
  | proxy hn _ => exact ⟨_, hn, rfl⟩

/-- A structure in a tower has the members of the client interface. -/
theorem offers {n : Node} {t : Structure} (h : st.Tower x e) (hs : st.Sound) (hw : st.AllWhole x)
    (hn : st.get? x = some n) (ht : n.entity.struct? = some t) {i : Nat} (hi : i < 5) :
    t.offers i = true := by
  cases h with
  | object hx _ => cases hn.symm.trans hx; cases ht
  | proxy hx _ => cases hn.symm.trans hx; cases ht
  | far hx hwhole =>
    cases hn.symm.trans hx
    cases ht
    exact hwhole i (Nat.lt_succ_of_lt hi)
  | wrapper hx hcls _ =>
    have hwhole := hw.self hs hx rfl
    cases hn.symm.trans hx
    cases ht
    rcases hcls with hcls | ⟨hcls, -⟩
    · exact hwhole.offers_of_client hcls hi
    · exact hwhole.offers_of_child hcls (Nat.lt_succ_of_lt hi)

/-- Below a proxy in a tower there is a structure with the members of the client interface. -/
theorem target {name : String} {p : SharedProxy} (h : st.Tower p.target e) (hs : st.Sound)
    (hw : st.AllWhole p.target) (hn : st.get? x = some ⟨name, .sharedProxy p, true⟩) :
    ∃ m t, st.get? p.target = some m ∧ m.live = true ∧ m.entity.struct? = some t ∧
      t.hasMember Layout.sharedFirst = true ∧ ∀ i < 5, t.offers i = true := by
  obtain ⟨m, hm, hlive⟩ := h.exists_live
  obtain ⟨m', hm', hrole⟩ := (hs.linked x _ _ hn rfl).2
  cases hm.symm.trans hm'
  obtain ⟨t, ht⟩ := Entity.struct?_of_role hrole
  have hmember : t.hasMember Layout.sharedFirst = true :=
    (hs.formed p.target m hm).hasMember ht (by rw [hrole]; exact Nat.le_refl _)
  exact ⟨m, t, hm, hlive, ht, hmember, fun i hi => h.offers hs hw hm ht hi⟩

end Store.Tower

theorem Structure.isSet_of_offers {t : Structure} {position : Nat} (h : t.offers position = true) :
    t.isSet position = true := (Bool.and_eq_true_iff.mp h).2

/-! ## Values -/

namespace Store

/-- The value that an interface function finds below an entity. A proxy whose structure does not
offer the function finds zero. -/
inductive Delivers (st : Store) (index : Nat) : Id → Int32 → Prop
  | bottom {x : Id} {n : Node} {r : Int32} : st.get? x = some n → n.live = true →
    n.entity.value? index = some r → st.Delivers index x r
  | wrapper {x : Id} {name : String} {v : SharedWrapper} {r : Int32} :
    st.get? x = some ⟨name, .sharedWrapper v, true⟩ → st.Delivers index v.object r →
      st.Delivers index x r
  | proxy {x : Id} {name : String} {p : SharedProxy} {n : Node} {t : Structure} {r : Int32} :
    st.get? x = some ⟨name, .sharedProxy p, true⟩ → st.get? p.target = some n →
      n.live = true → n.entity.struct? = some t → t.offers (Layout.sharedFirst + index) = true →
      t.hasMember (Layout.sharedFirst + index) = true → st.Delivers index p.target r →
      st.Delivers index x r
  | absent {x : Id} {name : String} {p : SharedProxy} {n : Node} {t : Structure} :
    st.get? x = some ⟨name, .sharedProxy p, true⟩ → st.get? p.target = some n →
      n.live = true → n.entity.struct? = some t → t.offers (Layout.sharedFirst + index) = false →
      st.Delivers index x 0

variable {st : Store} {x : Id} {e : Entity}

theorem Tower.delivers (h : st.Tower x e) (hs : st.Sound) (hw : st.AllWhole x) :
    ∃ r, e.value? 0 = some r ∧ st.Delivers 0 x r := by
  induction h with
  | @object x name o hn hclient =>
    have hvalue : ∃ r, (Entity.sharedObject o).value? 0 = some r := by
      obtain ⟨⟨behavior, claim⟩, count⟩ := o
      cases behavior with
      | client r => exact ⟨r, rfl⟩
      | child r other => exact ⟨r, rfl⟩
      | table r => cases hclient
    obtain ⟨r, hr⟩ := hvalue
    exact ⟨r, hr, .bottom hn rfl hr⟩
  | far hn _ => exact ⟨_, rfl, .bottom hn rfl rfl⟩
  | wrapper hn _ _ ih =>
    obtain ⟨r, hr, hdelivers⟩ := ih (hw.below hs hn rfl)
    exact ⟨r, hr, .wrapper hn hdelivers⟩
  | proxy hn h ih =>
    have hw' := hw.below hs hn rfl
    obtain ⟨r, hr, hdelivers⟩ := ih hw'
    obtain ⟨m, t, hm, hlive, ht, hmember, hoffers⟩ := h.target hs hw' hn
    exact ⟨r, hr, .proxy hn hm hlive ht (hoffers 4 (by decide)) hmember hdelivers⟩

/-- The other value is known on top of everything but a wrapper of the client class and an object
that has just that interface. -/
def knowsOther : Entity → Bool
  | .sharedObject o => (Entity.sharedObject o).isChild
  | .sharedWrapper v => decide (v.cls = .child)
  | _ => true

theorem knowsOther_of_isChild {n : Node} (h : st.IsChild x) (hn : st.get? x = some n) :
    knowsOther n.entity = true := by
  obtain ⟨m, hm, hchild⟩ := h
  cases hn.symm.trans hm
  obtain ⟨name, e, live⟩ := n
  cases e with
  | sharedObject o => exact hchild
  | sharedProxy p => rfl
  | _ => cases hchild

/-- A structure in a tower that knows the other value has a member for it. -/
theorem Tower.offers_other {n : Node} {t : Structure} (h : st.Tower x e) (hs : st.Sound)
    (hw : st.AllWhole x) (hn : st.get? x = some n) (ht : n.entity.struct? = some t)
    (hknows : knowsOther n.entity = true) : t.offers 5 = true ∧ t.hasMember 5 = true := by
  have hformed := hs.formed x n hn
  cases h with
  | object hx _ => cases hn.symm.trans hx; cases ht
  | proxy hx _ => cases hn.symm.trans hx; cases ht
  | @far x name f hx hwhole =>
    cases hn.symm.trans hx
    cases ht
    rw [Structure.hasMember, show f.struct.layout = Layout.sharedChild from hformed]
    exact ⟨hwhole 5 (by decide), rfl⟩
  | @wrapper x name v e hx _ _ =>
    have hwhole := hw.self hs hx rfl
    cases hn.symm.trans hx
    cases ht
    have hcls : v.cls = .child := of_decide_eq_true hknows
    rw [Structure.hasMember, show v.struct.layout = v.cls.layout from hformed, hcls]
    exact ⟨hwhole.offers_of_child hcls (by decide), rfl⟩

/-- What does not know it is of the client class, where the structure ends before. -/
theorem Tower.not_offers_other {n : Node} {t : Structure} (h : st.Tower x e) (hs : st.Sound)
    (hb : st.ClientsBounded x) (hn : st.get? x = some n) (ht : n.entity.struct? = some t)
    (hknows : knowsOther n.entity = false) : t.offers 5 = false := by
  cases h with
  | object hx _ => cases hn.symm.trans hx; cases ht
  | proxy hx _ => cases hn.symm.trans hx; cases ht
  | far hx _ => cases hn.symm.trans hx; cases hknows
  | wrapper hx hcls _ =>
    have hbounded := hb.self hs hx rfl
    cases hn.symm.trans hx
    cases ht
    rcases hcls with hcls | ⟨hcls, -⟩
    · exact (hbounded hcls).not_offers hcls
    · rw [knowsOther, hcls] at hknows
      cases hknows

/-- On top of a tower the other value is that of the bottom, if all wrappers are of the child
class, and zero otherwise, as long as no structure of the client class seems to have it. -/
theorem Tower.delivers_other (h : st.Tower x e) (hs : st.Sound) (hw : st.AllWhole x)
    (hx : ∀ n, st.get? x = some n → knowsOther n.entity = true) :
    (st.ChildOnly x → ∃ r, e.value? 1 = some r ∧ st.Delivers 1 x r) ∧
      (¬ st.ChildOnly x → st.ClientsBounded x → st.Delivers 1 x 0) := by
  induction h with
  | @object x name o hn hclient =>
    have honly : st.ChildOnly x := allWrappers_of_bottom hs hn rfl nofun
    have hvalue : ∃ r, (Entity.sharedObject o).value? 1 = some r := by
      have hchild := hx _ hn
      obtain ⟨⟨behavior, claim⟩, count⟩ := o
      cases behavior with
      | client r => cases hchild
      | child r other => exact ⟨other, rfl⟩
      | table r => cases hclient
    obtain ⟨r, hr⟩ := hvalue
    exact ⟨fun _ => ⟨r, hr, .bottom hn rfl hr⟩, fun h => absurd honly h⟩
  | @far x name f hn _ =>
    have honly : st.ChildOnly x := allWrappers_of_bottom hs hn rfl nofun
    exact ⟨fun _ => ⟨_, rfl, .bottom hn rfl rfl⟩, fun h => absurd honly h⟩
  | @wrapper x name v e hn hcls h ih =>
    have hchild : v.cls = .child := of_decide_eq_true (hx _ hn)
    have hobject : st.IsChild v.object := by
      rcases hcls with hcls | ⟨-, hobject⟩
      · rw [hchild] at hcls
        cases hcls
      · exact hobject
    have hbelow : st.ChildOnly x ↔ st.ChildOnly v.object := by
      refine (allWrappers_of_below hs hn rfl).trans (and_iff_right ?_)
      rintro u ⟨⟩
      exact hchild
    rw [hbelow]
    obtain ⟨hall, hnot⟩ := ih (hw.below hs hn rfl) fun n hn => knowsOther_of_isChild hobject hn
    refine ⟨fun honly => ?_, fun honly hb => .wrapper hn (hnot honly (hb.below hs hn rfl))⟩
    obtain ⟨r, hr, hdelivers⟩ := hall honly
    exact ⟨r, hr, .wrapper hn hdelivers⟩
  | @proxy x name p e hn h ih =>
    have hbelow : st.ChildOnly x ↔ st.ChildOnly p.target :=
      (allWrappers_of_below hs hn rfl).trans (and_iff_right nofun)
    rw [hbelow]
    have hw' := hw.below hs hn rfl
    obtain ⟨m, t, hm, hlive, ht, -⟩ := h.target hs hw' hn
    cases hknows : knowsOther m.entity with
    | true =>
      obtain ⟨hoffers, hmember⟩ := h.offers_other hs hw' hm ht hknows
      obtain ⟨hall, hnot⟩ := ih hw' fun n hn => by
        cases hm.symm.trans hn
        exact hknows
      refine ⟨fun honly => ?_, fun honly hb =>
        .proxy hn hm hlive ht hoffers hmember (hnot honly (hb.below hs hn rfl))⟩
      obtain ⟨r, hr, hdelivers⟩ := hall honly
      exact ⟨r, hr, .proxy hn hm hlive ht hoffers hmember hdelivers⟩
    | false =>
      -- The structure belongs to a wrapper of the client class, at which the call ends.
      refine ⟨fun honly => absurd hknows ?_, fun _ hb => .absent hn hm hlive ht
        (h.not_offers_other hs (hb.below hs hn rfl) hm ht hknows)⟩
      rw [Bool.not_eq_false]
      obtain ⟨mname, me, mlive⟩ := m
      cases me with
      | sharedWrapper v => exact decide_eq_true (honly.self hs hm rfl)
      | sharedObject o => cases ht
      | _ => rfl

end Store

namespace Act

variable {w : World} {x : Id} {e : Entity} {r : Int32}

theorem Agrees.yields {α : Type} {x y : Act α} {a : α} (h : Agrees x y w) (hy : Yields y w a) :
    Yields x w a := fun phase => by
  rw [h phase]
  exact hy phase

section Offered

variable {α : Type} {a absent : α} {s : Id} {position : Nat} {act : Act α} {n : Node}
  {t : Structure} (hn : w.store.get? s = some n) (hlive : n.live = true)
  (ht : n.entity.struct? = some t)
include hn hlive ht

/-- A proxy passes a call on if its structure offers the function. -/
theorem yields_throughOffered (hoffers : t.offers position = true)
    (hmember : t.hasMember position = true) (hact : Yields act w a) :
    Yields (throughOffered s position absent act) w a := by
  refine (agrees_throughOffered hn hlive ht (agrees_refl act w)).yields ?_
  rw [if_pos hoffers, calling_of_hasMember hmember]
  exact yields_contained hact

/-- It does not if its structure offers nothing. -/
theorem yields_throughOffered_absent (hoffers : t.offers position = false) :
    Yields (throughOffered s position absent act) w absent := by
  refine (agrees_throughOffered hn hlive ht (agrees_refl act w)).yields ?_
  rw [if_neg (Bool.eq_false_iff.mp hoffers)]
  exact yields_pure absent w

end Offered

theorem yields_farAnswer {a : FarAnswers} {index : Nat} {member : String}
    (ha : a.value? index = some (member, r)) : Yields (farAnswer x a index) w r := by
  refine yields_ofOption_bind ha fun phase => ⟨_, rfl, ?_⟩
  have hquiet := respects_farAnswer (w := w) x a index phase
  rw [farAnswer, ha] at hquiet
  exact hquiet

theorem yields_answerAlong {st : Store} {index : Nat} (h : st.Delivers index x r) (hs : st.Sound)
    (hw : w.store = st) (ht : w.IsTolerant) : Yields (answerAlong index (st.chain x)) w r := by
  induction h generalizing w with
  | @bottom x n r hn hlive hr =>
    rw [Store.chain_eq_cons hs.earlier]
    refine yields_entity_bind (hw ▸ hn) hlive ?_
    obtain ⟨name, e, live⟩ := n
    cases e with
    | sharedObject o =>
      have hpure : Yields (ofOption .wrongKind (o.object.behavior.answer? index)) w r := by
        rw [show o.object.behavior.answer? index = some r from hr]
        exact yields_pure r w
      exact hpure
    | sharedFar f =>
      obtain ⟨⟨member, r'⟩, ha, rfl⟩ := Option.map_eq_some_iff.mp hr
      exact yields_farAnswer ha
    | _ => cases hr
  | @wrapper x name v r hn _ ih =>
    rw [Store.chain_of_below hs.earlier hn rfl]
    refine yields_entity_bind (hw ▸ hn) rfl ?_
    have hbelow {w' : World} (hq : w.Quiet w') :
        Yields (requireRunning >>= fun _ => answerAlong index (st.chain v.object)) w' r :=
      yields_running_bind (hq.isTolerant ht) fun w'' hq' =>
        ih (hq'.store.trans (hq.store.trans hw)) (hq'.isTolerant (hq.isTolerant ht))
    dsimp only
    cases v.cls with
    | table _ _ => exact hbelow (refl_of World.Quiet w)
    | _ => exact yields_running_bind ht fun w' hq => hbelow hq
  | @proxy x name p n t r hn hm hlive hstruct hoffers hmember _ ih =>
    rw [Store.chain_of_below hs.earlier hn rfl]
    refine yields_entity_bind (hw ▸ hn) rfl (yields_running_bind ht fun w' hq => ?_)
    have hw' : w'.store = st := hq.store.trans hw
    exact yields_throughOffered (hw' ▸ hm) hlive hstruct hoffers hmember
      (ih hw' (hq.isTolerant ht))
  | @absent x name p n t hn hm hlive hstruct hoffers =>
    rw [Store.chain_of_below hs.earlier hn rfl]
    refine yields_entity_bind (hw ▸ hn) rfl (yields_running_bind ht fun w' hq => ?_)
    have hw' : w'.store = st := hq.store.trans hw
    exact yields_throughOffered_absent (hw' ▸ hm) hlive hstruct hoffers

theorem yields_answer {index : Nat} (h : w.store.Delivers index x r) (hs : w.store.Sound)
    (ht : w.IsTolerant) : Yields (answer index x) w r :=
  yields_get_bind (yields_answerAlong h hs rfl ht)

/-! ## Questions about references -/

theorem isSet_questionPosition {t : Structure} (h : ∀ i < 5, t.offers i = true) (q : Question) :
    t.isSet (questionPosition q) = true := by
  apply Structure.isSet_of_offers
  apply h
  cases q <;> decide

/-- Every layer of a tower says about its references what the bottom says. -/
theorem yields_askAlong {st : Store} (h : st.Tower x e) (hs : st.Sound) (hw : st.AllWhole x)
    (q : Question) :
    ∃ a, (a != 0) = e.tells q ∧
      ∀ w : World, w.store = st → Yields (askAlong q (st.chain x)) w a := by
  induction h with
  | @object x name o hn _ =>
    rw [Store.chain_eq_cons hs.earlier]
    refine ⟨_, truth_bne_zero _, fun w hst => yields_entity_bind (hst ▸ hn) rfl ?_⟩
    exact yields_pure _ w
  | @far x name f hn _ =>
    rw [Store.chain_eq_cons hs.earlier]
    refine ⟨_, rfl, fun w hst => yields_entity_bind (hst ▸ hn) rfl ?_⟩
    refine yields_bind (a := ()) ?_ fun w' _ => yields_pure _ w'
    apply yields_of_does (does_modify _ _)
    apply respects_called
    cases q <;> decide
  | @wrapper x name v e hn _ _ ih =>
    rw [Store.chain_of_below hs.earlier hn rfl]
    obtain ⟨a, ha, hyields⟩ := ih (hw.below hs hn rfl)
    refine ⟨truth (a != 0), by rw [truth_bne_zero, ha], fun w hst => ?_⟩
    refine yields_entity_bind (hst ▸ hn) rfl ?_
    exact yields_map (hyields w hst) fun a => truth (a != 0)
  | @proxy x name p e hn h ih =>
    rw [Store.chain_of_below hs.earlier hn rfl]
    have hw' := hw.below hs hn rfl
    obtain ⟨a, ha, hyields⟩ := ih hw'
    obtain ⟨m, t, hm, hlive, hstruct, -, hoffers⟩ := h.target hs hw' hn
    have hset := isSet_questionPosition hoffers q
    refine ⟨truth (a != 0), by rw [truth_bne_zero, ha], fun w hst => ?_⟩
    refine yields_entity_bind (hst ▸ hn) rfl ?_
    exact yields_map (yields_through (hst ▸ hm) hlive hstruct hset (hyields w hst))
      fun a => truth (a != 0)

theorem yields_ask (h : w.store.Tower x e) (hs : w.store.Sound) (hw : w.store.AllWhole x)
    (q : Question) :
    ∃ a, (a != 0) = e.tells q ∧ ∀ w', w.Quiet w' → Yields (ask q x) w' a := by
  obtain ⟨a, ha, hyields⟩ := yields_askAlong h hs hw q
  refine ⟨a, ha, fun w' hq => yields_get_bind ?_⟩
  rw [hq.store]
  exact hyields w' hq.store

/-- So it does if it is asked through the proxy above it. -/
theorem yields_askTarget {p : SharedProxy} {name : String} {q : Question}
    (h : w.store.Tower p.target e) (hs : w.store.Sound) (hw : w.store.AllWhole p.target)
    (hn : w.store.get? x = some ⟨name, .sharedProxy p, true⟩) :
    Yields (ProxyClass.askTarget q p) w (e.tells q) := by
  obtain ⟨m, t, hm, hlive, hstruct, -, hoffers⟩ := h.target hs hw hn
  obtain ⟨a, ha, hyields⟩ := yields_ask h hs hw q
  have hset := isSet_questionPosition hoffers q
  rw [← ha]
  have hask : Yields (ask q p.target) w a := hyields w (refl_of World.Quiet w)
  exact yields_map (yields_through hm hlive hstruct hset hask) fun a => a != 0

/-! ## Function members -/

theorem yields_baseMember {t : Tag} {n : Node} {absent : Int32} {f : Id → Act Int32}
    (hn : w.store.get? x = some n) (hlive : n.live = true) (ht : n.entity.wrapperTag? = some t)
    (hf : ∀ w', w.Quiet w' → Yields (f x) w' r) :
    Yields (baseMember t (some x) absent f) w r := by
  unfold baseMember
  rw [Option.isSome_some, require_true, pure_bind]
  exact yields_bind (yields_recognises hn hlive ht) hf

/-- A member of a structure in a tower that answers a question about references. -/
theorem yields_call_question (h : w.store.Tower x e) (hs : w.store.Sound) (hw : w.store.AllWhole x)
    (hr : w.store.HasRole x .sharedStructure) (q : Question) :
    ∃ a, (a != 0) = e.tells q ∧ Yields (call x (questionPosition q) (some x)) w (.number a) := by
  obtain ⟨a, ha, hask⟩ := yields_ask h hs hw q
  refine ⟨a, ha, ?_⟩
  obtain ⟨n, hn, hrole⟩ := hr
  cases h with
  | object hx _ => cases hn.symm.trans hx; cases hrole
  | proxy hx _ => cases hn.symm.trans hx; cases hrole
  | @far x name f hx hwhole =>
    have hnumber : Yields (ask q x >>= fun a => pure (Reply.number a)) w (.number a) :=
      yields_map (hask w (refl_of World.Quiet w)) Reply.number
    refine yields_entity_bind hx rfl (yields_ofOption_bind rfl ?_)
    rw [if_pos (isSet_questionPosition (fun i hi => hwhole i (Nat.lt_succ_of_lt hi)) q)]
    refine yields_ofOption_bind rfl (yields_entity_bind hx rfl ?_)
    cases q <;> exact hnumber
  | @wrapper x name v e hx hcls h =>
    have hset := isSet_questionPosition
      (fun i => (Store.Tower.wrapper hx hcls h).offers hs hw hx rfl) q
    have hmember : Yields (baseMember v.cls.tag (some x) 0 (ask q)) w a :=
      yields_baseMember hx rfl rfl hask
    refine yields_entity_bind hx rfl (yields_ofOption_bind rfl ?_)
    rw [if_pos hset]
    apply yields_contained
    cases q <;> exact yields_map hmember Reply.number

/-- The member of a structure in a tower that answers the value. -/
theorem yields_call_value (h : w.store.Tower x e) (hs : w.store.Sound) (hw : w.store.AllWhole x)
    (ht : w.IsTolerant) (hr : w.store.HasRole x .sharedStructure) :
    ∃ r, e.value? 0 = some r ∧ Yields (call x Layout.sharedFirst (some x)) w (.number r) := by
  obtain ⟨n, hn, hrole⟩ := hr
  cases h with
  | object hx _ => cases hn.symm.trans hx; cases hrole
  | proxy hx _ => cases hn.symm.trans hx; cases hrole
  | @far x name f hx hwhole =>
    refine ⟨_, rfl, yields_entity_bind hx rfl (yields_ofOption_bind rfl ?_)⟩
    rw [if_pos (Structure.isSet_of_offers (hwhole Layout.sharedFirst (by decide)))]
    refine yields_ofOption_bind rfl (yields_entity_bind hx rfl ?_)
    exact yields_map (yields_farAnswer rfl) Reply.number
  | @wrapper x name v e hx hcls h =>
    have hoffers : v.struct.offers Layout.sharedFirst = true :=
      (Store.Tower.wrapper hx hcls h).offers hs hw hx rfl (by decide)
    obtain ⟨r, hr, hdelivers⟩ := h.delivers hs (hw.below hs hx rfl)
    refine ⟨r, hr, yields_entity_bind hx rfl (yields_ofOption_bind rfl ?_)⟩
    rw [if_pos (Structure.isSet_of_offers hoffers)]
    apply yields_contained
    have hmember : Yields (interfaceMember v.cls.tag (some x) 0) w r := by
      refine yields_running_bind ht fun w₁ h₁ => ?_
      rw [Option.isSome_some, require_true, pure_bind]
      have hx₁ : w₁.store.get? x = _ := h₁.store ▸ hx
      refine yields_bind (yields_objectOf hx₁ rfl rfl (h₁.isTolerant ht)) fun w₂ h₂ => ?_
      have hq := trans_of World.Quiet h₁ h₂
      exact yields_answer (hq.store ▸ hdelivers) (hq.store ▸ hs) (hq.isTolerant ht)
    have hnumber := yields_map hmember Reply.number
    rcases hcls with hcls | ⟨hcls, -⟩ <;> rw [hcls] at hnumber ⊢ <;> exact hnumber

/-- What the wrapper behind a structure in a tower tells about itself. -/
theorem yields_inspect {name : String} {v : SharedWrapper} (h : w.store.Tower x e)
    (hs : w.store.Sound) (hw : w.store.AllWhole x)
    (hn : w.store.get? x = some ⟨name, .sharedWrapper v, true⟩) :
    Yields (v.cls.inspect x) w (some ⟨v.cls.tag, v.count, w.store.nameOf v.object, e.tells .unique,
      e.tells .referenced⟩) := by
  obtain ⟨a, ha, hunique⟩ := yields_ask h hs hw .unique
  obtain ⟨a', ha', hreferenced⟩ := yields_ask h hs hw .referenced
  rw [← ha, ← ha']
  refine yields_bind (yields_recognises hn rfl rfl) fun w₁ h₁ => ?_
  refine yields_entity_bind (h₁.store ▸ hn) rfl ?_
  refine yields_bind (hunique w₁ h₁) fun w₂ h₂ => ?_
  have hq := trans_of World.Quiet h₁ h₂
  refine yields_bind (hreferenced w₂ hq) fun w₃ h₃ => ?_
  rw [← (trans_of World.Quiet hq h₃).store]
  exact yields_get_bind (yields_pure _ w₃)

end Act

end ObjectBoundary
