import ObjectBoundary.Proofs.References.Moves

/-!
# One reference more or less

An entity with one reference more or less, and what becomes of its count, of its existence and
of the references that it owns.

* `Node.raised`, `Node.lowered`: an entity with one reference more or less.
* `Node.shifts_raised`, `Node.shifts_lowered`: its count and what it owns change by one.
-/

namespace ObjectBoundary

/-! ## Changed entities -/

namespace Entity

def raised : Entity → Entity
  | sharedObject o => sharedObject { o with count := o.count.succ }
  | sharedWrapper w => sharedWrapper { w with count := w.count.succ }
  | sharedProxy p => sharedProxy { p with count := p.count.succ }
  | sharedFar f => sharedFar { f with references := f.references + 1 }
  | e => e

def lowered : Entity → Entity
  | sharedObject o => sharedObject { o with count := o.count.pred }
  | sharedWrapper w => sharedWrapper { w with count := w.count.pred }
  | sharedProxy p => sharedProxy { p with count := p.count.pred }
  | sharedFar f =>
    sharedFar { f with references := f.references - 1, freed := f.freed || f.references - 1 == 0 }
  | e => e

/-- The count of an entity of this side, if it is shared. -/
def sharedCount? : Entity → Option Count
  | sharedObject o => some o.count
  | sharedWrapper w => some w.count
  | sharedProxy p => some p.count
  | _ => none

/-- Whether giving up one reference destroys the entity. -/
def isLast (e : Entity) : Bool := e.sharedCount?.any Count.isOne

/-- What the function `release` answers to the one who gives the reference up. -/
def releaseAnswer : Entity → Int32
  | sharedFar f => if f.references - 1 = 0 then f.answers.truthy else 0
  | e => Act.truth e.isLast

/-- Whether one more reference is within the limit. -/
def canRise (e : Entity) : Bool := e.sharedCount?.all fun c => !c.isFull

theorem not_full_of_canRise {e : Entity} {c : Count} (h : e.canRise = true)
    (hc : e.sharedCount? = some c) : c.isFull = false := by
  simpa [canRise, hc] using h

theorem count?_of_sharedCount? {e : Entity} {c : Count} (h : e.sharedCount? = some c) :
    e.count? = some c := by
  cases e <;> first | exact h | cases h

theorem raised_eq_withCount {e : Entity} {c : Count} (h : e.sharedCount? = some c) :
    e.raised = e.withCount c.succ := by
  cases e <;> first | (cases h; rfl) | cases h

theorem lowered_eq_withCount {e : Entity} {c : Count} (h : e.sharedCount? = some c) :
    e.lowered = e.withCount c.pred := by
  cases e <;> first | (cases h; rfl) | cases h

end Entity

namespace Node

def raised (n : Node) : Node := { n with entity := n.entity.raised }

def lowered (n : Node) : Node :=
  { n with entity := n.entity.lowered, live := n.live && !n.entity.isLast }

end Node

theorem Count.toNat_succ_of_not_full {c : Count} (h : c.isFull = false) :
    c.succ.toNat = c.toNat + 1 := by
  have hle : ¬ Count.limit.toNat < c.toNat := fun hlt => by
    rw [(isFull_iff c).mpr hlt] at h
    cases h
  have hlimit : Count.limit.toNat = 9223372036854775807 := rfl
  rw [toNat_succ, Nat.mod_eq_of_lt]
  show c.toNat + 1 < 18446744073709551616
  omega

theorem Count.toNat_pred_of_pos {c : Count} (h : 0 < c.toNat) : c.pred.toNat = c.toNat - 1 := by
  have hlt : c.toNat < UInt64.size := UInt64.toNat_lt_size c.word
  have hsize : UInt64.size = 18446744073709551616 := rfl
  rw [toNat_pred]
  rw [hsize] at hlt ⊢
  omega

/-- A count that rises within the limit still agrees with the existence of its entity. -/
theorem Count.fits_succ {c : Count} {live : Bool} (hlive : live = true) (hc : c.isFull = false) :
    c.succ.Fits live := by
  have hs := Count.toNat_succ_of_not_full hc
  have hle : ¬ Count.limit.toNat < c.toNat := fun hlt => by
    rw [(Count.isFull_iff c).mpr hlt] at hc
    cases hc
  refine ⟨⟨fun _ => by omega, fun _ => hlive⟩, ?_⟩
  unfold Count.top
  omega

/-- A count that falls still agrees with the existence of its entity. -/
theorem Count.Fits.pred {c : Count} {live : Bool} (h : c.Fits live) (hlive : live = true) :
    c.pred.Fits (live && !c.isOne) := by
  have hpos := h.live_iff.mp hlive
  have hp := Count.toNat_pred_of_pos hpos
  have hle := h.le_top
  refine ⟨?_, by omega⟩
  cases hone : c.isOne with
  | true =>
    have := (Count.isOne_iff c).mp hone
    simp only [Bool.not_true, Bool.and_false, Bool.false_eq_true, false_iff]
    omega
  | false =>
    have : c.toNat ≠ 1 := fun he => by
      rw [(Count.isOne_iff c).mpr he] at hone
      cases hone
    simp only [hlive, Bool.not_false, Bool.and_self, true_iff]
    omega

/-! ## Shifts by one -/

/-- What a live entity of this side owns of others is its own count. -/
theorem Node.backs_eq {n : Node} (hlive : n.live = true) (z : Id) :
    (n.backs z : Int) = credit n.entity.backing? n.entity.references z := by
  obtain ⟨name, e, live⟩ := n
  change live = true at hlive
  subst hlive
  cases e with
  | sharedWrapper w =>
    simp only [Node.backs, Node.wraps, Node.proxies, credit, Entity.backing?, Entity.references,
      true_and, Option.some.injEq, add_zero]
    split <;> rfl
  | sharedProxy p =>
    simp only [Node.backs, Node.wraps, Node.proxies, credit, Entity.backing?, Entity.references,
      true_and, Option.some.injEq, zero_add]
    split <;> rfl
  | _ => rfl

theorem Node.backs_eq_zero {n : Node} (hlive : n.live = false) (z : Id) : n.backs z = 0 := by
  obtain ⟨name, e, live⟩ := n
  change live = false at hlive
  subst hlive
  cases e <;> simp [Node.backs, Node.wraps, Node.proxies]

theorem Entity.backing?_raised (e : Entity) : e.raised.backing? = e.backing? := by
  cases e <;> rfl

theorem Entity.backing?_lowered (e : Entity) : e.lowered.backing? = e.backing? := by
  cases e <;> rfl

theorem Entity.below?_raised (e : Entity) : e.raised.below? = e.below? := by
  cases e <;> rfl

theorem Entity.continues_raised (e : Entity) : e.Continues e.raised := by
  cases e with
  | sharedObject o => exact rfl
  | sharedWrapper w => exact ⟨rfl, rfl, .refl _⟩
  | sharedProxy p => exact ⟨rfl, rfl⟩
  | sharedFar f => exact ⟨rfl, .refl _⟩
  | _ => exact .refl _

theorem Entity.continues_lowered (e : Entity) : e.Continues e.lowered := by
  cases e with
  | sharedObject o => exact rfl
  | sharedWrapper w => exact ⟨rfl, rfl, .refl _⟩
  | sharedProxy p => exact ⟨rfl, rfl⟩
  | sharedFar f => exact ⟨rfl, .refl _⟩
  | _ => exact .refl _

theorem credit_add (x : Option Id) (d d' : Int) (z : Id) :
    credit x (d + d') z = credit x d z + credit x d' z := by
  by_cases h : x = some z <;> simp [credit, h]

theorem Node.references_raised {n : Node} (hs : n.entity.isShared = true)
    (hr : n.entity.canRise = true) :
    n.raised.entity.references = n.entity.references + 1 := by
  obtain ⟨name, e, live⟩ := n
  cases e with
  | sharedObject o =>
    exact congrArg Int.ofNat (Count.toNat_succ_of_not_full (Entity.not_full_of_canRise hr rfl))
  | sharedWrapper w =>
    exact congrArg Int.ofNat (Count.toNat_succ_of_not_full (Entity.not_full_of_canRise hr rfl))
  | sharedProxy p =>
    exact congrArg Int.ofNat (Count.toNat_succ_of_not_full (Entity.not_full_of_canRise hr rfl))
  | sharedFar f => rfl
  | _ => exact absurd hs nofun

theorem Node.counted_raised {n : Node} (hc : n.Counted) (hlive : n.live = true)
    (hr : n.entity.canRise = true) : n.raised.Counted := by
  obtain ⟨name, e, live⟩ := n
  cases e with
  | sharedObject o => exact Count.fits_succ hlive (Entity.not_full_of_canRise hr rfl)
  | sharedWrapper w => exact Count.fits_succ hlive (Entity.not_full_of_canRise hr rfl)
  | sharedProxy p => exact Count.fits_succ hlive (Entity.not_full_of_canRise hr rfl)
  | sharedFar f =>
    refine ⟨hc.1, fun hle => hc.2 ?_⟩
    change f.references + 1 ≤ 0 at hle
    omega
  | _ => trivial

theorem Node.shifts_raised {n : Node} (hc : n.Counted) (hlive : n.live = true)
    (hs : n.entity.isShared = true) (hr : n.entity.canRise = true) : n.Shifts n.raised 1 := by
  have href := Node.references_raised hs hr
  refine ⟨⟨rfl, fun h => h, Entity.continues_raised _⟩, Node.counted_raised hc hlive hr, href,
    fun z => ?_⟩
  rw [Node.backs_eq (n := n.raised) hlive, Node.backs_eq hlive, href, ← credit_add]
  exact congrArg (credit · _ z) (Entity.backing?_raised n.entity)

theorem Node.references_lowered {n : Node} (hc : n.Counted) (hlive : n.live = true)
    (hs : n.entity.isShared = true) :
    n.lowered.entity.references = n.entity.references - 1 := by
  have pred_eq {c : Count} (h : c.Fits n.live) : (c.pred.toNat : Int) = c.toNat - 1 := by
    have hpos := h.live_iff.mp hlive
    rw [Count.toNat_pred_of_pos hpos]
    omega
  obtain ⟨name, e, live⟩ := n
  cases e with
  | sharedObject o => exact pred_eq hc
  | sharedWrapper w => exact pred_eq hc
  | sharedProxy p => exact pred_eq hc
  | sharedFar f => rfl
  | _ => exact absurd hs nofun

theorem Node.counted_lowered {n : Node} (hc : n.Counted) (hlive : n.live = true) :
    n.lowered.Counted := by
  obtain ⟨name, e, live⟩ := n
  cases e with
  | sharedObject o => exact Count.Fits.pred hc hlive
  | sharedWrapper w => exact Count.Fits.pred hc hlive
  | sharedProxy p => exact Count.Fits.pred hc hlive
  | sharedFar f =>
    refine ⟨by simpa [Node.lowered, Entity.isLast, Entity.sharedCount?] using hlive, ?_⟩
    intro hle
    change f.references - 1 ≤ 0 at hle
    show (f.freed || f.references - 1 == 0) = true
    by_cases hf : f.references ≤ 0
    · rw [hc.2 hf, Bool.true_or]
    · have : f.references - 1 = 0 := by omega
      rw [this]
      exact Bool.or_true _
  | _ => trivial

theorem Node.shifts_lowered {n : Node} (hc : n.Counted) (hlive : n.live = true)
    (hs : n.entity.isShared = true) : n.Shifts n.lowered (-1) := by
  have href := Node.references_lowered hc hlive hs
  have hcount := Node.counted_lowered hc hlive
  refine ⟨⟨rfl, fun _ => hlive, Entity.continues_lowered _⟩, hcount, href, ?_⟩
  intro z
  have hsame : credit n.entity.backing? n.lowered.entity.references z =
      n.backs z + credit n.entity.backing? (-1) z := by
    rw [href, sub_eq_add_neg, credit_add, Node.backs_eq hlive]
  rw [← hsame]
  cases hlast : n.lowered.live with
  | true =>
    rw [Node.backs_eq hlast]
    exact congrArg (credit · _ z) (Entity.backing?_lowered n.entity)
  | false =>
    -- What was destroyed has no reference left, so that it owned none.
    rw [Node.backs_eq_zero hlast]
    have hzero : n.lowered.entity.backing? = none ∨ n.lowered.entity.references = 0 := by
      have none_left {c : Count} (h : c.Fits n.lowered.live) : (c.toNat : Int) = 0 := by
        have := h.live_iff
        rw [hlast] at this
        simp only [Bool.false_eq_true, false_iff] at this
        omega
      obtain ⟨name, e, live⟩ := n
      cases e with
      | sharedWrapper w => exact Or.inr (none_left hcount)
      | sharedProxy p => exact Or.inr (none_left hcount)
      | _ => exact Or.inl rfl
    rcases hzero with hb | hr
    · rw [show n.entity.backing? = none from (Entity.backing?_lowered n.entity).symm.trans hb]
      rfl
    · rw [hr]
      simp [credit]

theorem Node.isAccountable_lowered (n : Node) :
    n.lowered.entity.isAccountable = n.entity.isAccountable := by
  obtain ⟨name, e, live⟩ := n
  cases e <;> rfl

end ObjectBoundary
