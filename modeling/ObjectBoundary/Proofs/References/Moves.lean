import ObjectBoundary.Proofs.Quiet
import ObjectBoundary.Proofs.References.Balance

/-!
# Moving references

What an act does to the references is said by a number for every entity: how many more of its
references are outside than before. The numbers of acts that follow each other add up. They say
nothing about structures of which a member that counts references is null, as references to those
are not handed on.

* `Store.Accountable`: the entities that the numbers are about.
* `World.Moves`: a world moves references as some numbers say, and stays sound.
-/

namespace ObjectBoundary

/-! ## Structures that count -/

/-- Both members that count references are there. -/
def Structure.counts (s : Structure) : Bool := s.isSet Layout.addRef && s.isSet Layout.release

theorem Structure.Continues.counts {s s' : Structure} (h : s.Continues s')
    (hs : s'.counts = true) : s.counts = true := by
  simp only [Structure.counts, Bool.and_eq_true] at hs ⊢
  exact ⟨h.isSet _ hs.1, h.isSet _ hs.2⟩

theorem Structure.isSet_of_counts {s : Structure} (h : s.counts = true) {position : Nat}
    (hp : position = Layout.addRef ∨ position = Layout.release) : s.isSet position = true := by
  simp only [Structure.counts, Bool.and_eq_true] at h
  rcases hp with rfl | rfl
  · exact h.1
  · exact h.2

/-- An entity whose references are handed on: a shared structure only with its members. -/
def Entity.isAccountable : Entity → Bool
  | .sharedWrapper w => w.struct.counts
  | .sharedFar f => f.struct.counts
  | _ => true

theorem Entity.Continues.isAccountable {e e' : Entity} (h : e.Continues e')
    (ha : e'.isAccountable = true) : e.isAccountable = true := by
  cases e <;> cases e' <;> first | rfl | contradiction | skip
  case sharedWrapper => exact h.2.2.counts ha
  case sharedFar => exact h.2.counts ha

/-- Only shared structures may fail to hand references on. -/
theorem Entity.isAccountable_of_role {e : Entity} (h : e.role ≠ .sharedStructure) :
    e.isAccountable = true := by
  cases e <;> first | rfl | exact absurd rfl h

namespace Store

def Accountable (st : Store) (z : Id) : Prop :=
  ∀ n, st.get? z = some n → n.entity.isAccountable = true

theorem Continues.accountable {st st' : Store} (h : st.Continues st') {z : Id}
    (ha : st'.Accountable z) : st.Accountable z := by
  intro n hn
  obtain ⟨n', hn', hc⟩ := h z n hn
  exact hc.entity.isAccountable (ha n' hn')

theorem accountable_of_structures {st : Store} {z : Id}
    (h : st.HasRole z .sharedStructure → st.Accountable z) : st.Accountable z := by
  intro n hn
  by_cases hr : n.entity.role = .sharedStructure
  · exact h ⟨n, hn, hr⟩ n hn
  · exact Entity.isAccountable_of_role hr

/-- It takes a look at every entity. -/
theorem accountable_of_nodes {st : Store}
    (h : (st.nodes.all fun n => n.entity.isAccountable) = true) (z : Id) : st.Accountable z := by
  intro n hn
  exact List.all_eq_true.mp h n (List.mem_of_getElem? hn)

end Store

/-! ## Objects that stand -/

/-- Zero for a local object that was destroyed, one for all else. -/
def Node.standing (n : Node) : Nat :=
  match n.entity with
  | .sharedObject _ | .ownedObject _ => if n.live then 1 else 0
  | _ => 1

/-- There is a reference counted entity. -/
def Store.IsShared (st : Store) (z : Id) : Prop :=
  ∃ n, st.get? z = some n ∧ n.entity.isShared = true

theorem Store.Continues.isShared {st st' : Store} (h : st.Continues st') {z : Id}
    (hz : st.IsShared z) : st'.IsShared z := by
  obtain ⟨n, hn, hs⟩ := hz
  obtain ⟨n', hn', hc⟩ := h z n hn
  exact ⟨n', hn', by rw [Entity.isShared, hc.entity.role]; exact hs⟩

def Store.standing (st : Store) (z : Id) : Nat := (st.get? z).elim 1 Node.standing

theorem Store.standing_push (st : Store) {n : Node} (h : n.live = true) (z : Id) :
    (st.push n).standing z = st.standing z := by
  unfold Store.standing
  rw [get?_push]
  split
  · rename_i hz
    rw [hz, get?_size]
    obtain ⟨name, e, live⟩ := n
    change live = true at h
    subst h
    cases e <;> rfl
  · rfl

/-! ## Moves -/

/-- The references outside of accountable entities change as `δ` says. The log tells how every
count changes, and which local objects are destroyed. -/
structure World.Moves (w w' : World) (δ : Id → Int) : Prop where
  sound : w'.store.Sound
  continues : w.store.Continues w'.store
  outside : ∀ z, w'.store.Accountable z → w'.store.outside z = w.store.outside z + δ z
  told : ∀ z, w.store.IsShared z →
    w'.store.references z - (w'.changes z).sum = w.store.references z - (w.changes z).sum
  drops : ∀ z, w'.drops z + w'.store.standing z = w.drops z + w.store.standing z

namespace World

theorem Moves.refl {w : World} (h : w.store.Sound) : w.Moves w 0 :=
  ⟨h, .refl _, fun _ _ => (add_zero _).symm, fun _ _ => rfl, fun _ => rfl⟩

theorem Moves.trans {w w' w'' : World} {δ δ' : Id → Int} (h : w.Moves w' δ)
    (h' : w'.Moves w'' δ') : w.Moves w'' (δ + δ') := by
  refine ⟨h'.sound, h.continues.trans h'.continues, fun z hz => ?_, fun z hz => ?_,
    fun z => ?_⟩
  · rw [h'.outside z hz, h.outside z (h'.continues.accountable hz), Pi.add_apply, add_assoc]
  · rw [h'.told z (h.continues.isShared hz), h.told z hz]
  · rw [h'.drops z, h.drops z]

theorem Moves.of_eq {w w' : World} {δ δ' : Id → Int} (h : w.Moves w' δ) (hδ : δ = δ') :
    w.Moves w' δ' := hδ ▸ h

/-- Only what is said of accountable entities counts. -/
theorem Moves.congr {w w' : World} {δ δ' : Id → Int} (h : w.Moves w' δ)
    (hδ : ∀ z, w'.store.Accountable z → δ z = δ' z) : w.Moves w' δ' :=
  ⟨h.sound, h.continues, fun z hz => hδ z hz ▸ h.outside z hz, h.told, h.drops⟩

theorem Quiet.moves {w w' : World} (h : w.Quiet w') (hs : w.store.Sound) : w.Moves w' 0 := by
  have hstore := h.store
  refine ⟨hstore ▸ hs, hstore ▸ .refl _, ?_, ?_, ?_⟩
  · intro z _
    rw [hstore, Pi.zero_apply, add_zero]
  · intro z _
    rw [hstore, h.changes z]
  · intro z
    rw [hstore, h.drops z]

theorem Moves.quiet {w w' w'' : World} {δ : Id → Int} (h : w.Moves w' δ) (hq : w'.Quiet w'') :
    w.Moves w'' δ := (h.trans (hq.moves h.sound)).of_eq (add_zero δ)

theorem Quiet.trans_moves {w w' w'' : World} {δ : Id → Int} (hq : w.Quiet w')
    (hs : w.store.Sound) (h : w'.Moves w'' δ) : w.Moves w'' δ :=
  ((hq.moves hs).trans h).of_eq (zero_add δ)

/-- Adding an entity. -/
theorem moves_push {w : World} (h : w.store.Sound) {n : Node} (hlive : n.live = true)
    (hc : n.Counted) (hf : n.entity.Formed)
    (hl : ∀ y, n.entity.below? = some y → w.store.HasRole y n.entity.linkRole)
    (hb : ∀ z, (n.backs z : Int) = credit n.entity.backing? n.entity.references z) :
    w.Moves { w with store := w.store.push n }
      (credit (some w.store.size) n.entity.references -
        credit n.entity.backing? n.entity.references) := by
  refine ⟨Store.sound_push h hc hf hl, Store.continues_push _ _, fun z _ => ?_, fun z hz => ?_,
    fun z => ?_⟩
  · rw [Pi.sub_apply, ← hb z]
    exact Store.outside_push _ _ _
  · have href := Store.references_push w.store n z
    obtain ⟨m, hm, -⟩ := hz
    rw [credit_of_ne (Nat.ne_of_lt (Store.lt_size hm)), add_zero] at href
    exact congrArg (· - (w.changes z).sum) href
  · exact congrArg (w.drops z + ·) (Store.standing_push w.store hlive z)

end World

end ObjectBoundary
