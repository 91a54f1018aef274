import ObjectBoundary.Proofs.References.Transfer

/-!
# Whole chains

Where nobody has given up more references than there were, an entity with a reference has all
that lies below it, and counts never decrease on the way down: what lies below has at least the
references that the entity owns. So what one reference destroys is the upper part of a chain.

* `Store.Sound.upheld_chain`: all of a chain exists.
* `Store.Sound.chain_pairwise`: counts do not decrease on the way down.
* `Store.Linked.reach_eq_chain`: a reference reaches the whole chain.
* `Store.Sound.references_eq_zero`: what nobody outside refers to has no reference.
* `exists_prefix_of_pairwise`: the least of an ordered list are a prefix of it.
-/

namespace ObjectBoundary

/-! ## Shared entities -/

namespace Entity

variable {e : Entity}

/-- A shared entity owns references to what it refers to. -/
theorem backing?_of_isShared (h : e.isShared = true) : e.backing? = e.below? := by
  cases e <;> first | rfl | cases h

theorem isShared_of_references (h : e.references ≠ 0) : e.isShared = true := by
  cases e <;> first | rfl | exact absurd rfl h

end Entity

/-- An entity that has a reference exists. -/
theorem Node.Counted.live {n : Node} (h : n.Counted) (href : 1 ≤ n.entity.references) :
    n.live = true := by
  have live_of {c : Count} (hc : c.Fits n.live) (hpos : (1 : Int) ≤ c.toNat) :
      n.live = true := hc.live_iff.mpr (by omega)
  obtain ⟨name, e, live⟩ := n
  cases e with
  | sharedObject o => exact live_of h href
  | sharedWrapper v => exact live_of h href
  | sharedProxy p => exact live_of h href
  | sharedFar f => exact h.1
  | _ => exact absurd (show (1 : Int) ≤ 0 from href) (by decide)

namespace Store

variable {st : Store} {x y : Id} {n : Node}

theorem exists_of_references (h : 1 ≤ st.references x) :
    ∃ n, st.get? x = some n ∧ 1 ≤ n.entity.references := by
  unfold references at h
  cases hn : st.get? x with
  | none => rw [hn] at h; exact absurd h (by decide)
  | some n => rw [hn] at h; exact ⟨n, rfl, h⟩

/-- What an entity owns, the one below it counts. -/
theorem Sound.references_le_below (hs : st.Sound) (hn : st.get? x = some n)
    (href : 1 ≤ n.entity.references) (hy : n.entity.below? = some y) (hout : 0 ≤ st.outside y) :
    st.references x ≤ st.references y := by
  have hlive := (hs.counted x n hn).live href
  have hshared := Entity.isShared_of_references (e := n.entity) (by omega)
  have hbacks : (n.backs y : Int) = n.entity.references := by
    rw [Node.backs_eq hlive, Entity.backing?_of_isShared hshared, hy, credit_self]
  have hle := st.le_total (Node.backs y) hn
  have hx : st.references x = n.entity.references := by rw [references, hn]; rfl
  rw [outside_eq] at hout
  omega

/-- All of a chain exists, and counts do not decrease on the way down. -/
theorem Sound.upheld_chain (hs : st.Sound) (hx : 1 ≤ st.references x)
    (hout : ∀ y ∈ st.chain x, 0 ≤ st.outside y) :
    st.Upheld (st.chain x) ∧ ∀ y ∈ st.chain x, st.references x ≤ st.references y := by
  induction x using Nat.strongRecOn with
  | ind x ih =>
    have hchain := chain_eq_cons hs.earlier x
    obtain ⟨n, hn, href⟩ := exists_of_references hx
    have hlive := (hs.counted x n hn).live href
    have hshared := Entity.isShared_of_references (e := n.entity) (by omega)
    rw [below?_eq_some hn] at hchain
    cases hy : n.entity.below? with
    | none =>
      rw [hy] at hchain
      rw [hchain]
      refine ⟨upheld_cons hn hlive hshared (upheld_nil st), ?_⟩
      intro y hmem
      cases List.mem_singleton.mp hmem
      exact Int.le_refl _
    | some y =>
      rw [hy, Option.elim_some] at hchain
      rw [hchain] at hout ⊢
      have hlt := (hs.linked x n y hn hy).1
      have hself : y ∈ st.chain y := by rw [chain_eq_cons hs.earlier]; exact List.mem_cons_self
      have hle := hs.references_le_below hn href hy (hout y (List.mem_cons_of_mem _ hself))
      obtain ⟨hup, hbelow⟩ := ih y hlt (hx.trans hle)
        fun z hz => hout z (List.mem_cons_of_mem _ hz)
      refine ⟨upheld_cons hn hlive hshared hup, ?_⟩
      intro z hz
      rcases List.mem_cons.mp hz with rfl | hz
      · exact Int.le_refl _
      · exact hle.trans (hbelow z hz)

theorem Sound.chain_pairwise (hs : st.Sound) (hx : 1 ≤ st.references x)
    (hout : ∀ y ∈ st.chain x, 0 ≤ st.outside y) :
    (st.chain x).Pairwise fun y z => st.references y ≤ st.references z := by
  induction x using Nat.strongRecOn with
  | ind x ih =>
    have hbelow := (hs.upheld_chain hx hout).2
    have hchain := chain_eq_cons hs.earlier x
    rw [hchain] at hbelow hout ⊢
    cases hy : st.below? x with
    | none => exact List.pairwise_singleton _ _
    | some y =>
      rw [hy, Option.elim_some] at hbelow hout
      have hself : y ∈ st.chain y := by rw [chain_eq_cons hs.earlier]; exact List.mem_cons_self
      refine List.pairwise_cons.mpr ⟨fun z hz => hbelow z (List.mem_cons_of_mem _ hz), ?_⟩
      exact ih y (hs.earlier x y hy) (hx.trans (hbelow y (List.mem_cons_of_mem _ hself)))
        fun z hz => hout z (List.mem_cons_of_mem _ hz)

/-- Where all structures of a chain have their members, a reference reaches all of it, unless it
meets what does not exist. -/
theorem Linked.reach_eq_of_upheld (hl : st.Linked) {position : Nat}
    (hp : position = Layout.addRef ∨ position = Layout.release)
    (hup : st.Upheld (st.reach position (st.chain x)))
    (hacc : ∀ y ∈ st.chain x, st.Accountable y) :
    st.reach position (st.chain x) = st.chain x := by
  induction x using Nat.strongRecOn with
  | ind x ih =>
    have hchain := chain_eq_cons hl.earlier x
    obtain ⟨n, hn, -, hshared⟩ := hup x (by rw [hchain]; exact List.mem_cons_self)
    rw [below?_eq_some hn] at hchain
    cases hy : n.entity.below? with
    | none =>
      rw [hy] at hchain
      rw [hchain]
      show (x :: if _ then st.reach position [] else []) = [x]
      split <;> rfl
    | some y =>
      rw [hy, Option.elim_some] at hchain
      rw [hchain] at hup hacc ⊢
      have hself : y ∈ st.chain y := by rw [chain_eq_cons hl.earlier]; exact List.mem_cons_self
      obtain ⟨hlt, hrole⟩ := hl x n y hn hy
      have hpass : st.passes position n.entity = true := by
        by_contra hpass
        rw [Bool.not_eq_true] at hpass
        have hback := (Entity.backing?_of_isShared hshared).trans hy
        exact not_accountable_of_not_passes hp hpass hback hrole
          (hacc y (List.mem_cons_of_mem _ hself))
      rw [reach_cons_of_passes hn hpass] at hup ⊢
      exact congrArg (x :: ·) (ih y hlt (fun z hz => hup z (List.mem_cons_of_mem _ hz))
        fun z hz => hacc z (List.mem_cons_of_mem _ hz))

theorem Linked.reach_eq_chain (hl : st.Linked) {position : Nat}
    (hp : position = Layout.addRef ∨ position = Layout.release)
    (hup : st.Upheld (st.chain x)) (hacc : ∀ y ∈ st.chain x, st.Accountable y) :
    st.reach position (st.chain x) = st.chain x :=
  hl.reach_eq_of_upheld hp (fun y hy => hup y (reach_subset _ _ _ y hy)) hacc

/-- What nobody outside refers to is referred to by nobody: the latest entity has no reference,
so it owns none, and so on down to the first. -/
theorem Sound.references_eq_zero (hs : st.Sound) (hout : ∀ z, st.outside z = 0) (z : Id) :
    st.references z = 0 := by
  induction hk : st.size - z using Nat.strongRecOn generalizing z with
  | ind k ih =>
    have hbacks : st.total (Node.backs z) = 0 := by
      rw [total_eq_zero_iff]
      intro x n hn
      by_contra hne
      have hlive : n.live = true := by
        by_contra hdead
        exact hne (Node.backs_eq_zero (Bool.eq_false_iff.mpr hdead) z)
      have hcredit : credit n.entity.backing? n.entity.references z ≠ 0 := by
        rw [← Node.backs_eq hlive z]
        omega
      have hback : n.entity.backing? = some z := by
        by_contra hother
        exact hcredit (if_neg hother)
      have hlt := (hs.linked x n z hn (backing?_eq_below? hback)).1
      have hnearer : st.size - x < k := hk ▸ Nat.sub_lt_sub_left (hlt.trans (lt_size hn)) hlt
      have hx := ih _ hnearer x rfl
      rw [references, hn] at hx
      change n.entity.references = 0 at hx
      rw [hx, hback, credit_self] at hcredit
      exact hcredit rfl
    have houtside := hout z
    rw [outside_eq, hbacks] at houtside
    omega

end Store

/-! ## Prefixes -/

/-- In an ordered list, the elements at the lower bound are a prefix. -/
theorem exists_prefix_of_pairwise {f : Id → Int} {l : List Id} {d : Int}
    (h : l.Pairwise fun y z => f y ≤ f z) (hd : ∀ y ∈ l, d ≤ f y) :
    ∃ l', l' <+: l ∧ ∀ y, y ∈ l' ↔ y ∈ l ∧ f y = d := by
  induction l with
  | nil => exact ⟨[], List.nil_prefix, fun y => by simp⟩
  | cons x l ih =>
    obtain ⟨hx, hl⟩ := List.pairwise_cons.mp h
    by_cases heq : f x = d
    · obtain ⟨l', hprefix, hmem⟩ := ih hl fun y hy => hd y (List.mem_cons_of_mem _ hy)
      refine ⟨x :: l', List.prefix_cons_inj x |>.mpr hprefix, ?_⟩
      intro y
      rw [List.mem_cons, List.mem_cons, hmem]
      constructor
      · rintro (rfl | ⟨hy, hyd⟩)
        · exact ⟨Or.inl rfl, heq⟩
        · exact ⟨Or.inr hy, hyd⟩
      · rintro ⟨rfl | hy, hyd⟩
        · exact Or.inl rfl
        · exact Or.inr ⟨hy, hyd⟩
    · refine ⟨[], List.nil_prefix, fun y => ⟨nofun, ?_⟩⟩
      rintro ⟨hy, hyd⟩
      have hxd := hd x List.mem_cons_self
      rcases List.mem_cons.mp hy with rfl | hy
      · exact absurd hyd heq
      · have := hx y hy
        omega

end ObjectBoundary
