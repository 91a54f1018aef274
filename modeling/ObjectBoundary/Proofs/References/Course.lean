import ObjectBoundary.Proofs.References.Transfer

/-!
# The course of the counts

While an act is under way, counts rise before they fall: references are taken first and given up
afterwards. So no count ever falls below what it was before and what it is afterwards, and what
is freed on the way stays without a reference.

* `World.Rises`, `World.Falls`: all counts have risen, or all have fallen.
* `World.Turns`: references have moved, and the counts have risen and then fallen.
* `World.Still`: no reference has moved.
-/

namespace ObjectBoundary

/-! ## What is freed -/

/-- Whether a shared entity has been destroyed, or marked as such by the far side. -/
def Node.isFreed (n : Node) : Bool :=
  match n.entity with
  | .sharedFar f => f.freed
  | .sharedObject _ | .sharedWrapper _ | .sharedProxy _ => !n.live
  | _ => false

def Store.isFreed (st : Store) (z : Id) : Bool := (st.get? z).any Node.isFreed

theorem Node.isFreed_raised (n : Node) : n.raised.isFreed = n.isFreed := by
  obtain ⟨name, e, live⟩ := n
  cases e <;> rfl

/-- What is freed by giving a reference up has no reference left. -/
theorem Node.isFreed_lowered {n : Node} (hc : n.Counted) (hlive : n.live = true)
    (hs : n.entity.isShared = true) (h : n.lowered.isFreed = true) :
    n.isFreed = true ∨ n.lowered.entity.references ≤ 0 := by
  have hcount := Node.counted_lowered hc hlive
  have none_left {c : Count} (hd : (!n.lowered.live) = true) (hc : c.Fits n.lowered.live) :
      (c.toNat : Int) ≤ 0 := by
    rw [Bool.not_eq_true'] at hd
    have := hc.live_iff
    rw [hd] at this
    simp only [Bool.false_eq_true, false_iff] at this
    omega
  obtain ⟨name, e, live⟩ := n
  cases e with
  | sharedObject o => exact Or.inr (none_left h hcount)
  | sharedWrapper v => exact Or.inr (none_left h hcount)
  | sharedProxy p => exact Or.inr (none_left h hcount)
  | sharedFar f =>
    change (f.freed || f.references - 1 == 0) = true at h
    rw [Bool.or_eq_true, beq_iff_eq] at h
    exact h.imp id fun h0 => (show f.references - 1 ≤ 0 by omega)
  | _ => cases hs

namespace World

/-! ## Rising and falling -/

structure Rises (w w' : World) : Prop where
  changes : ∀ z, ∃ k, w'.changes z = w.changes z ++ List.replicate k 1
  freed : ∀ z, w'.store.isFreed z = true → w.store.isFreed z = true

structure Falls (w w' : World) : Prop where
  changes : ∀ z, ∃ k, w'.changes z = w.changes z ++ List.replicate k (-1)
  references : ∀ z, w'.store.references z ≤ w.store.references z
  freed : ∀ z, w'.store.isFreed z = true →
    w.store.isFreed z = true ∨ w'.store.references z ≤ 0

variable {w w₁ w₂ : World} {x : Id} {ys : List Id} {δ δ' : Id → Int}

theorem Rises.trans (h : w.Rises w₁) (h' : w₁.Rises w₂) : w.Rises w₂ := by
  refine ⟨fun z => ?_, fun z hz => h.freed z (h'.freed z hz)⟩
  obtain ⟨k, hk⟩ := h.changes z
  obtain ⟨l, hl⟩ := h'.changes z
  refine ⟨k + l, ?_⟩
  rw [hl, hk, List.append_assoc, List.replicate_append_replicate]

theorem Falls.trans (h : w.Falls w₁) (h' : w₁.Falls w₂) : w.Falls w₂ := by
  refine ⟨?_, fun z => (h'.references z).trans (h.references z), ?_⟩
  · intro z
    obtain ⟨k, hk⟩ := h.changes z
    obtain ⟨l, hl⟩ := h'.changes z
    refine ⟨k + l, ?_⟩
    rw [hl, hk, List.append_assoc, List.replicate_append_replicate]
  · intro z hz
    rcases h'.freed z hz with hz | hz
    · exact (h.freed z hz).imp id ((h'.references z).trans)
    · exact Or.inr hz

theorem Quiet.rises (h : w.Quiet w₁) : w.Rises w₁ :=
  ⟨fun z => ⟨0, by simp [h.changes]⟩, fun z hz => h.store ▸ hz⟩

theorem Quiet.falls (h : w.Quiet w₁) : w.Falls w₁ :=
  ⟨fun z => ⟨0, by simp [h.changes]⟩, fun z => by rw [h.store], fun z hz => Or.inl (h.store ▸ hz)⟩

theorem Retained.rises (h : w.Retained w₁ ys) (hys : ys.Nodup) : w.Rises w₁ := by
  refine ⟨?_, ?_⟩
  · intro z
    by_cases hz : z ∈ ys
    · exact ⟨1, by rw [h.adjusted.changes, if_pos hz]; rfl⟩
    · exact ⟨0, by rw [h.adjusted.changes, if_neg hz]; rfl⟩
  · intro z
    rw [h.adjusted.store, Store.isFreed, Store.isFreed, Store.get?_modifyAll hys]
    split
    · cases w.store.get? z with
      | none => exact id
      | some n => exact fun hz => (Node.isFreed_raised n).symm.trans hz
    · exact id

theorem Released.falls (h : w.Released w₁ ys) (hs : w.store.Sound) (hys : ys.Nodup) :
    w.Falls w₁ := by
  have hshift := h.allShift hs
  refine ⟨?_, ?_, ?_⟩
  · intro z
    by_cases hz : z ∈ ys
    · exact ⟨1, by rw [h.adjusted.changes, if_pos hz]; rfl⟩
    · exact ⟨0, by rw [h.adjusted.changes, if_neg hz]; rfl⟩
  · intro z
    rw [h.adjusted.store, Store.references_modifyAll hys fun y hy => by
      obtain ⟨n, hn, hsh⟩ := hshift y hy
      exact ⟨n, hn, hsh.references⟩]
    split <;> omega
  · intro z hz
    rw [h.adjusted.store, Store.isFreed, Store.get?_modifyAll hys] at hz
    by_cases hmem : z ∈ ys
    · obtain ⟨n, hn, hlive, hshared⟩ := h.upheld z hmem
      rw [if_pos hmem, hn] at hz
      have hfree := Node.isFreed_lowered (hs.counted z n hn) hlive hshared hz
      rw [Store.isFreed, Store.references, h.adjusted.store, Store.get?_modifyAll hys, if_pos hmem,
        hn]
      exact hfree
    · rw [if_neg hmem] at hz
      exact Or.inl hz

/-! ## References on their way -/

/-- References have moved, and no count has fallen. -/
structure Ascends (w w' : World) (δ : Id → Int) : Prop extends Moves w w' δ, Rises w w'

/-- References have moved, and no count has risen. -/
structure Descends (w w' : World) (δ : Id → Int) : Prop extends Moves w w' δ, Falls w w'

/-- References have moved, and no count has risen after it had fallen. -/
structure Turns (w w' : World) (δ : Id → Int) : Prop extends Moves w w' δ where
  course : ∀ z, ∃ k l, w'.changes z = w.changes z ++
    (List.replicate k 1 ++ List.replicate l (-1))
  freed : ∀ z, w'.store.isFreed z = true → w.store.isFreed z = true ∨ w'.store.references z ≤ 0

theorem Quiet.ascends (h : w.Quiet w₁) (hs : w.store.Sound) : w.Ascends w₁ 0 :=
  ⟨h.moves hs, h.rises⟩

theorem Quiet.descends (h : w.Quiet w₁) (hs : w.store.Sound) : w.Descends w₁ 0 :=
  ⟨h.moves hs, h.falls⟩

theorem Ascends.trans (h : w.Ascends w₁ δ) (h' : w₁.Ascends w₂ δ') : w.Ascends w₂ (δ + δ') :=
  ⟨h.toMoves.trans h'.toMoves, h.toRises.trans h'.toRises⟩

theorem Descends.trans (h : w.Descends w₁ δ) (h' : w₁.Descends w₂ δ') :
    w.Descends w₂ (δ + δ') :=
  ⟨h.toMoves.trans h'.toMoves, h.toFalls.trans h'.toFalls⟩

theorem Ascends.of_eq (h : w.Ascends w₁ δ) (hδ : δ = δ') : w.Ascends w₁ δ' := hδ ▸ h

theorem Descends.of_eq (h : w.Descends w₁ δ) (hδ : δ = δ') : w.Descends w₁ δ' := hδ ▸ h

theorem Turns.of_eq (h : w.Turns w₁ δ) (hδ : δ = δ') : w.Turns w₁ δ' := hδ ▸ h

theorem Ascends.turn (h : w.Ascends w₁ δ) (h' : w₁.Descends w₂ δ') : w.Turns w₂ (δ + δ') := by
  refine ⟨h.toMoves.trans h'.toMoves, ?_, ?_⟩
  · intro z
    obtain ⟨k, hk⟩ := h.changes z
    obtain ⟨l, hl⟩ := h'.changes z
    exact ⟨k, l, by rw [hl, hk, List.append_assoc]⟩
  · intro z hz
    exact (h'.freed z hz).imp (h.freed z) id

theorem Ascends.turns (h : w.Ascends w₁ δ) : w.Turns w₁ δ :=
  (h.turn ((refl_of Quiet w₁).descends h.sound)).of_eq (add_zero δ)

theorem Quiet.turn (h : w.Quiet w₁) (hs : w.store.Sound) (h' : w₁.Descends w₂ δ) :
    w.Turns w₂ δ :=
  ((h.ascends hs).turn h').of_eq (zero_add δ)

theorem Descends.turns (hs : w.store.Sound) (h : w.Descends w₁ δ) : w.Turns w₁ δ :=
  (refl_of Quiet w).turn hs h

theorem Quiet.turns (h : w.Quiet w₁) (hs : w.store.Sound) : w.Turns w₁ 0 :=
  (h.ascends hs).turns

theorem Quiet.trans_ascends (h : w.Quiet w₁) (hs : w.store.Sound) (h' : w₁.Ascends w₂ δ) :
    w.Ascends w₂ δ :=
  ((h.ascends hs).trans h').of_eq (zero_add δ)

theorem Ascends.quiet (h : w.Ascends w₁ δ) (h' : w₁.Quiet w₂) : w.Ascends w₂ δ :=
  (h.trans (h'.ascends h.sound)).of_eq (add_zero δ)

theorem Descends.quiet (h : w.Descends w₁ δ) (h' : w₁.Quiet w₂) : w.Descends w₂ δ :=
  (h.trans (h'.descends h.sound)).of_eq (add_zero δ)

theorem Quiet.trans_turns (h : w.Quiet w₁) (hs : w.store.Sound) (h' : w₁.Turns w₂ δ) :
    w.Turns w₂ δ := by
  refine ⟨h.trans_moves hs h'.toMoves, ?_, ?_⟩
  · intro z
    rw [← h.changes]
    exact h'.course z
  · intro z hz
    rw [← h.store]
    exact h'.freed z hz

theorem Turns.quiet (h : w.Turns w₁ δ) (h' : w₁.Quiet w₂) : w.Turns w₂ δ := by
  refine ⟨h.toMoves.quiet h', ?_, ?_⟩
  · intro z
    rw [h'.changes]
    exact h.course z
  · intro z hz
    rw [h'.store] at hz ⊢
    exact h.freed z hz

theorem Retained.ascends (hs : w.store.Sound) (h : w.Retained w₁ (w.above x)) :
    w.Ascends w₁ (credit (some x) 1) :=
  ⟨h.moves hs, h.rises (Store.reach_nodup (Store.chain_nodup hs.earlier x) _ _)⟩

theorem Released.descends (hs : w.store.Sound) (h : w.Released w₁ (w.below x)) :
    w.Descends w₁ (credit (some x) (-1)) :=
  ⟨h.moves hs, h.falls hs (Store.reach_nodup (Store.chain_nodup hs.earlier x) _ _)⟩

end World

end ObjectBoundary
