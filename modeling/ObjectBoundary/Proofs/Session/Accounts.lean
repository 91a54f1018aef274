import ObjectBoundary.Proofs.Session.Conservation

/-!
# Accounts of structures

The references to a structure are those that live proxies own and those in the ledger. Within a
step they never fall below the fewer of those before and after it, so that no structure is freed
for which anyone still has a reference.

* `structures_accounted`: the law.
* `not_structures_accounted_cleared`: it takes the members that count references.
-/

namespace ObjectBoundary

/-! ## Prefixes of a course -/

/-- What rises before it falls is at its lowest at one of its ends. -/
theorem min_le_sum_of_prefix {k m : Nat} {l : List Int}
    (h : l <+: List.replicate k 1 ++ List.replicate m (-1)) :
    min 0 (List.replicate k (1 : Int) ++ List.replicate m (-1)).sum ≤ l.sum := by
  obtain ⟨i, rfl⟩ : ∃ i, l = (List.replicate k (1 : Int) ++ List.replicate m (-1)).take i :=
    ⟨l.length, List.prefix_iff_eq_take.mp h⟩
  rw [List.take_append, List.take_replicate, List.take_replicate, List.length_replicate]
  simp only [List.sum_append, List.sum_replicate, Int.nsmul_eq_mul]
  omega

namespace Session

variable {s : State} {x : Step} {out : Ledger} {z : Id}

/-- The log tells how the count of an entity changes. -/
theorem Moved.told {δ : Ledger} (h : Moved s x δ) (hz : s.world.store.IsShared z) :
    s.world.store.references z + ((s.step x).2.world.changes z).sum =
      (s.step x).2.world.store.references z := by
  have htold : (s.step x).2.world.store.references z - ((s.step x).2.world.changes z).sum =
      s.world.store.references z - 0 := h.turns.told z hz
  omega

/-- At no moment of a step is the count below both of its ends. -/
theorem Moved.min_le {δ : Ledger} (h : Moved s x δ) (hz : s.world.store.IsShared z)
    {l : List Int} (hl : l <+: (s.step x).2.world.changes z) :
    min (s.world.store.references z) ((s.step x).2.world.store.references z) ≤
      s.world.store.references z + l.sum := by
  have htold := h.told hz
  obtain ⟨k, m, hcourse⟩ := h.turns.course z
  have hchanges : (s.step x).2.world.changes z =
      List.replicate k 1 ++ List.replicate m (-1) := hcourse
  rw [hchanges] at hl htold
  have := min_le_sum_of_prefix hl
  omega

theorem isShared_of_role (hr : s.world.store.HasRole z .sharedStructure) :
    s.world.store.IsShared z := by
  obtain ⟨n, hn, hrole⟩ := hr
  exact ⟨n, hn, decide_eq_true (Or.inr hrole)⟩

/-- The references to a structure with its members are those of its live proxies and those in the
ledger. Within a step no count falls below both of its ends. A step that frees a structure leaves
no reference to it, unless more were given up than there were. -/
theorem structures_accounted (h : Reachable State.Undisturbed s out) :
    (∀ z, s.world.store.HasRole z .sharedStructure → s.world.store.Accountable z →
      s.world.store.references z = out z + s.world.store.proxied z) ∧
    ∀ x, s.Undisturbed x → ∀ z, s.world.store.HasRole z .sharedStructure →
      s.world.store.references z + ((s.step x).2.world.changes z).sum =
          (s.step x).2.world.store.references z ∧
      (∀ l, l <+: (s.step x).2.world.changes z →
        min (s.world.store.references z) ((s.step x).2.world.store.references z) ≤
          s.world.store.references z + l.sum) ∧
      ((s.step x).2.world.store.Accountable z → 0 ≤ (out + s.entry x) z →
        s.destroys x z = true →
          (out + s.entry x) z = 0 ∧ (s.step x).2.world.store.proxied z = 0) := by
  have hbalanced := h.balanced
  refine ⟨fun z hr ha => hbalanced.references_structure hr ha, ?_⟩
  intro x hx z hr
  obtain ⟨δ, hmoved⟩ := hbalanced.moved hx
  have hshared := isShared_of_role hr
  refine ⟨hmoved.told hshared, fun l hl => hmoved.min_le hshared hl, ?_⟩
  intro ha hout hdestroys
  rw [State.destroys, Bool.and_eq_true, Bool.not_eq_true'] at hdestroys
  have hreferences := (hbalanced.step hx).references_structure
    (hmoved.turns.continues.hasRole hr) ha
  rcases hmoved.turns.freed z hdestroys.2 with hfreed | hnone
  · exact absurd (hdestroys.1.symm.trans hfreed) Bool.false_ne_true
  · omega

/-- A wrapper is handed on, so that a proxy owns the only reference to it. -/
def handedOn : List Step :=
  [.create (.sharedObject ⟨.client 7, none⟩) "a",
    .shared (.wrap .client (some "a") "w"), .shared (.receive .client (some "w") "p")]

/-- Giving the proxy up frees the wrapper, to which nobody has a reference any more. -/
theorem structures_accounted_handedOn :
    let s := (State.initial {} (some .default)).after handedOn
    s.world.store.references 1 = 0 + s.world.store.proxied 1 ∧
      s.destroys (.handle (.drop "p")) 1 = true ∧
      (s.step (.handle (.drop "p"))).2.world.store.proxied 1 = 0 ∧
      1 + ((s.step (.handle (.drop "p"))).2.world.changes 1).sum = 0 := by
  have h := (Reachable.initial {} (some .default)).after handedOn rfl
  obtain ⟨haccount, hstep⟩ := structures_accounted h
  obtain ⟨htold, -, hfreed⟩ := hstep (.handle (.drop "p")) (State.undisturbed_of_isDone rfl) 1
    ⟨_, rfl, rfl⟩
  have hcounts : ((State.initial {} (some .default)).after
      handedOn |>.step (.handle (.drop "p"))).2.world.store.Accountable 1 := by
    intro n heq
    cases heq
    rfl
  exact ⟨haccount 1 ⟨_, rfl, rfl⟩ (by rintro n ⟨⟩; rfl), rfl,
    (hfreed hcounts (Int.le_refl 0) rfl).2, htold⟩

/-- A wrapper loses its `add_ref` after it was handed on. -/
def clearedBelow : List Step := handedOn ++ [.struct (.clear "w" "add_ref")]

/-- Then the handle to its proxy is cloned, which takes no reference to the wrapper any more. -/
def clonedAbove : List Step := clearedBelow ++ [.handle (.clone "p" "q")]

/-- The account of a live wrapper need not be right if its structure has lost a member. -/
theorem not_structures_accounted_cleared :
    ¬ ∀ s out, Reachable State.Undisturbed s out → ∀ z,
      s.world.store.HasRole z .sharedStructure → s.world.store.isFreed z = false →
      (s.world.store.wrapperTag? z).isSome = true →
      s.world.store.references z = out z + s.world.store.proxied z := by
  intro h
  have hreachable := (Reachable.initial {} (some .default)).after clonedAbove rfl
  have heq := h _ _ hreachable 1 ⟨_, rfl, rfl⟩ rfl rfl
  have hreferences : ((State.initial {} (some .default)).after
      clonedAbove).world.store.references 1 = 1 := rfl
  have hproxied : ((State.initial {} (some .default)).after
      clonedAbove).world.store.proxied 1 = 2 := rfl
  have hout : (0 + (State.initial {} (some .default)).entries clonedAbove) 1 = 0 := rfl
  rw [hreferences, hproxied, hout] at heq
  exact absurd heq (by decide)

end Session

end ObjectBoundary
