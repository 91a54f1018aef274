import ObjectBoundary.Proofs.References.Course

/-!
# Acts that leave all references alone

What has a single owner is destroyed with it, which moves no reference; neither does it to change
a structure. Such acts may destroy, change and add entities, but no count.

* `World.Still`: no count has changed and no reference has moved.
* `still_modify`, `still_push`: changing an entity, and adding one, that is not shared.
-/

namespace ObjectBoundary

/-! ## Entities that are not shared -/

namespace Node

variable {n n' : Node}

theorem references_eq_zero (h : n.entity.isShared = false) : n.entity.references = 0 := by
  obtain ⟨name, e, live⟩ := n
  cases e <;> first | rfl | cases h

theorem backs_of_not_isShared (h : n.entity.isShared = false) (z : Id) : n.backs z = 0 := by
  obtain ⟨name, e, live⟩ := n
  cases e <;> first | rfl | cases h

theorem isFreed_of_not_isShared (h : n.entity.isShared = false) : n.isFreed = false := by
  obtain ⟨name, e, live⟩ := n
  cases e <;> first | rfl | cases h

theorem counted_of_not_isShared (h : n.entity.isShared = false) : n.Counted := by
  obtain ⟨name, e, live⟩ := n
  cases e <;> trivial

/-- A change of an entity that concerns no reference. -/
structure Keeps (n n' : Node) : Prop where
  continues : n.Continues n'
  counted : n.Counted → n'.Counted
  references : n'.entity.references = n.entity.references
  backs : ∀ z, n'.backs z = n.backs z
  freed : n'.isFreed = n.isFreed

theorem keeps_of_not_isShared (h : n.entity.isShared = false) (hc : n.Continues n') :
    n.Keeps n' := by
  have h' : n'.entity.isShared = false := by
    rw [Entity.isShared, hc.entity.role]
    exact h
  refine ⟨hc, fun _ => counted_of_not_isShared h', ?_, ?_, ?_⟩
  · rw [references_eq_zero h, references_eq_zero h']
  · intro z
    rw [backs_of_not_isShared h, backs_of_not_isShared h']
  · rw [isFreed_of_not_isShared h, isFreed_of_not_isShared h']

end Node

/-! ## Still worlds -/

namespace World

/-- No count has changed and no reference has moved. -/
structure Still (w w' : World) : Prop where
  later : w.Later w'
  sound : w.store.Sound → w'.store.Sound
  continues : w.store.Continues w'.store
  references : ∀ z, w'.store.references z = w.store.references z
  outside : ∀ z, w'.store.outside z = w.store.outside z
  changes : ∀ z, w'.changes z = w.changes z
  drops : ∀ z, w'.drops z + w'.store.standing z = w.drops z + w.store.standing z
  freed : ∀ z, w'.store.isFreed z = w.store.isFreed z

instance : IsPreorder World Still where
  refl w := ⟨refl_of Later w, id, .refl _, fun _ => rfl, fun _ => rfl, fun _ => rfl,
    fun _ => rfl, fun _ => rfl⟩
  trans _ _ _ h h' :=
    ⟨trans_of Later h.later h'.later, fun hs => h'.sound (h.sound hs),
      h.continues.trans h'.continues, fun z => (h'.references z).trans (h.references z),
      fun z => (h'.outside z).trans (h.outside z), fun z => (h'.changes z).trans (h.changes z),
      fun z => (h'.drops z).trans (h.drops z),
      fun z => (h'.freed z).trans (h.freed z)⟩

variable {w w' : World}

theorem Quiet.still (h : w.Quiet w') : w.Still w' := by
  have hstore := h.store
  refine ⟨h.later, fun hs => hstore ▸ hs, hstore ▸ .refl _, fun z => ?_, fun z => ?_, h.changes,
    fun z => ?_, fun z => ?_⟩
  · rw [hstore]
  · rw [hstore]
  · rw [hstore, h.drops]
  · rw [hstore]

theorem Still.moves (h : w.Still w') (hs : w.store.Sound) : w.Moves w' 0 := by
  refine ⟨h.sound hs, h.continues, ?_, ?_, h.drops⟩
  · intro z _
    rw [h.outside, Pi.zero_apply, add_zero]
  · intro z _
    rw [h.references, h.changes]

theorem Still.turns (h : w.Still w') (hs : w.store.Sound) : w.Turns w' 0 :=
  ⟨h.moves hs, fun z => ⟨0, 0, by simp [h.changes]⟩, fun z hz => Or.inl (h.freed z ▸ hz)⟩

/-- Changing an entity without changing its count. The log may tell that it was destroyed. -/
theorem still_modify {x : Id} {n : Node} {f : Node → Node} {l : List Event}
    (hn : w.store.get? x = some n) (hf : n.Keeps (f n))
    (hl : ∀ z, l.filterMap (Event.change? z) = [])
    (hd : ∀ z, l.count (.dropped z) + (if z = x then (f n).standing else 0) =
      if z = x then n.standing else 0) :
    w.Still { w with store := w.store.modify x f, log := w.log ++ l } := by
  refine ⟨⟨rfl, fun _ h => h, fun h => h⟩, fun hs => ?_, Store.continues_modify hn hf.continues,
    fun z => ?_, fun z => ?_, fun z => ?_, fun z => ?_, fun z => ?_⟩
  · exact Store.sound_modify hs hn hf.continues (hf.counted (hs.counted x n hn))
  · have href := Store.references_modify hn (d := 0) (by rw [hf.references, add_zero]) z
    simp only [credit, ite_self, add_zero] at href
    exact href
  · have href := Store.references_modify hn (d := 0) (by rw [hf.references, add_zero]) z
    simp only [credit, ite_self, add_zero] at href
    have htotal := Store.total_modify w.store (Node.backs z) (f := f) hn
    rw [hf.backs z] at htotal
    change (w.store.modify x f).outside z = _
    change (w.store.modify x f).references z = _ at href
    rw [Store.outside_eq, Store.outside_eq, href]
    omega
  · simp [World.changes, hl]
  · have := hd z
    have hstanding : (w.store.modify x f).standing z + (if z = x then n.standing else 0) =
        w.store.standing z + if z = x then (f n).standing else 0 := by
      unfold Store.standing
      rw [Store.get?_modify]
      by_cases hz : z = x
      · subst hz
        rw [if_pos rfl, if_pos rfl, if_pos rfl, hn]
        exact Nat.add_comm _ _
      · rw [if_neg hz, if_neg hz, if_neg (Ne.symm hz)]
    show (w.log ++ l).count (.dropped z) + (w.store.modify x f).standing z =
      w.log.count (.dropped z) + w.store.standing z
    rw [List.count_append]
    omega
  · show (w.store.modify x f).isFreed z = w.store.isFreed z
    rw [Store.isFreed, Store.isFreed, Store.get?_modify]
    by_cases hz : x = z
    · subst hz
      rw [if_pos rfl, hn]
      exact hf.freed
    · rw [if_neg hz]

/-- Adding an entity that is not shared. -/
theorem still_push {n : Node} (hn : n.entity.isShared = false) (hlive : n.live = true)
    (hf : n.entity.Formed)
    (hl : ∀ y, n.entity.below? = some y → w.store.HasRole y n.entity.linkRole) :
    w.Still { w with store := w.store.push n } := by
  have hzero (z : Id) : credit (some w.store.size) n.entity.references z = 0 := by
    rw [Node.references_eq_zero hn]
    simp [credit]
  refine ⟨⟨rfl, fun _ h => h, fun h => h⟩, fun hs => ?_, Store.continues_push _ _, fun z => ?_,
    fun z => ?_, fun z => rfl, fun z => ?_, fun z => ?_⟩
  · exact Store.sound_push hs (Node.counted_of_not_isShared hn) hf hl
  · show (w.store.push n).references z = _
    rw [Store.references_push, hzero, add_zero]
  · show (w.store.push n).outside z = _
    rw [Store.outside_push, hzero, Node.backs_of_not_isShared hn]
    simp
  · exact congrArg (w.drops z + ·) (Store.standing_push w.store hlive z)
  · show (w.store.push n).isFreed z = _
    rw [Store.isFreed, Store.isFreed, Store.get?_push]
    split
    · rename_i hz
      rw [hz, Store.get?_size, Option.any_some, Node.isFreed_of_not_isShared hn]
      rfl
    · rfl

end World

/-! ## Single changes -/

namespace Act

variable {w : World} {x : Id} {n : Node}

theorem still_of_quiet {α : Type} {y : Act α} (h : Respects World.Quiet y w) :
    Respects World.Still y w :=
  respects_mono h fun _ hq => hq.still

theorem respects_put {e : Entity} (hn : w.store.get? x = some n)
    (hk : n.Keeps { n with entity := e })
    (hs : Node.standing { n with entity := e } = n.standing) :
    Respects World.Still (put x e) w := by
  have := World.still_modify (f := fun n => { n with entity := e }) (l := []) hn hk
    (fun _ => rfl) fun z => by rw [hs]; simp
  rw [List.append_nil] at this
  exact respects_modify this

/-- An entity with a single owner that is no object ceases to exist. -/
theorem respects_retire (hn : w.store.get? x = some n) (hns : n.entity.isShared = false)
    (hs : Node.standing { n with live := false } = n.standing) :
    Respects World.Still (retire x) w := by
  have hcont : n.Continues { n with live := false } := ⟨rfl, nofun, .refl _⟩
  have := World.still_modify (f := fun n => { n with live := false }) (l := []) hn
    (Node.keeps_of_not_isShared hns hcont) (fun _ => rfl) fun z => by rw [hs]; simp
  rw [List.append_nil] at this
  exact respects_modify this

/-- An owned object is destroyed, which is logged. -/
theorem respects_destroy {o : LocalObject} {name : String}
    (hn : w.store.get? x = some ⟨name, .ownedObject o, true⟩) :
    Respects World.Still (retire x >>= fun _ => emit (.dropped x)) w := by
  have hcont : Node.Continues ⟨name, .ownedObject o, true⟩ ⟨name, .ownedObject o, false⟩ :=
    ⟨rfl, nofun, .refl _⟩
  have := World.still_modify (f := fun n => { n with live := false }) (l := [.dropped x]) hn
    (Node.keeps_of_not_isShared rfl hcont) (fun _ => rfl) fun z => by
      by_cases hz : z = x
      · simp [hz, Node.standing]
      · simp [hz, Ne.symm hz]
  exact fun _ => this

theorem respects_create {name : String} {e : Entity} (hns : e.isShared = false) (hf : e.Formed)
    (hl : ∀ y, e.below? = some y → w.store.HasRole y e.linkRole) :
    Respects World.Still (create name e) w :=
  fun _ => World.still_push (n := ⟨name, e, true⟩) hns rfl hf hl

end Act

end ObjectBoundary
