import ObjectBoundary.Proofs.Session.Dues
import ObjectBoundary.Proofs.Session.History
import ObjectBoundary.Proofs.Session.Undisturbed

/-!
# Settling all references

In whatever order the references that are due are given up, nothing fails on the way. In the end
all entities have been destroyed, each of them once.

* `Orderly.settle`, `Orderly.settle_all`: one step, and all of them.
* `references_settled`: nothing is left, in any order.
* `not_references_settled_cleared`: it takes the members that count references.
-/

namespace ObjectBoundary.Session

open ObjectBoundary

variable {s : State} {x : Step} {out : Ledger} {z : Id}

namespace State

/-- Giving up what is due succeeds, and no check fails. -/
theorem Orderly.settle {d : Due} (h : s.Orderly out) (hx : s.Settles x d)
    (hd : 1 ≤ s.due out d) :
    s.isDone x = true ∧ (s.step x).2.world.failures = [] ∧
      (s.step x).2.Orderly (out + s.entry x) ∧ s.entry x = d.entry ∧
      (s.step x).2.slots = d.slots s.slots ∧
      s.world.store.Continues (s.step x).2.world.store := by
  obtain ⟨z, hgives, hleft⟩ := hx.spec h hd
  obtain ⟨hdoes, hspec⟩ := hgives.spec h.balanced (h.intact z)
  have hdone := hdoes h.isOpen.isTolerant
  obtain ⟨hadjusted, -⟩ := hspec hdone
  obtain ⟨hslots, hentry⟩ := hleft hdone
  have hundisturbed := undisturbed_of_isDone hdone
  obtain ⟨δ, hmoved⟩ := h.balanced.moved hundisturbed
  have hopen : s.begun.IsOpen := h.isOpen
  have hget := get?_of_modifyAll h.balanced.sound hadjusted.store
  refine ⟨hdone, hadjusted.failures hopen, ?_, hentry, hslots, hmoved.turns.continues⟩
  refine ⟨h.balanced.step hundisturbed, hadjusted.isOpen hopen, ?_, ?_⟩
  · intro y n hn
    rw [hget y] at hn
    split at hn
    · obtain ⟨m, hm, rfl⟩ := Option.map_eq_some_iff.mp hn
      rw [Node.isAccountable_lowered]
      exact h.accountable y m hm
    · exact h.accountable y n hn
  · intro y
    have hnonneg := h.nonneg y
    rw [hentry, Pi.add_apply]
    cases d with
    | held name => exact (add_zero (out y)).symm ▸ hnonneg
    | handed z' =>
      by_cases hy : y = z'
      · subst hy
        change 1 ≤ out y at hd
        rw [Due.entry, credit_self]
        omega
      · rw [Due.entry, credit_of_ne hy]
        omega

/-! ## All steps -/

/-- Steps that give up no more than what is due succeed one after the other, and no check
fails. -/
theorem Orderly.settle_all {xs : List Step} {ds : List Due} (h : s.Orderly out)
    (hds : List.Forall₂ s.Settles xs ds) (hdue : ∀ d, (ds.count d : Int) ≤ s.due out d) :
    s.areDone xs = true ∧ (s.logged xs).filter Event.isFailure = [] ∧
      (s.after xs).Orderly (out + s.entries xs) ∧
      ∀ d, (s.after xs).due (out + s.entries xs) d = s.due out d - ds.count d := by
  induction xs generalizing s out ds with
  | nil =>
    cases hds
    refine ⟨rfl, rfl, (add_zero out).symm ▸ h, ?_⟩
    intro d
    rw [List.count_nil]
    show s.due (out + 0) d = s.due out d - 0
    rw [add_zero, sub_zero]
  | cons x xs ih =>
    cases hds with
    | @cons _ d _ ds hx hxs =>
      have hd : 1 ≤ s.due out d := by
        have hle := hdue d
        rw [Due.count_cons, if_pos rfl] at hle
        omega
      obtain ⟨hdone, hfailures, horderly, hentry, hslots, hcontinues⟩ := h.settle hx hd
      have hafter (d' : Due) : (s.step x).2.due (out + s.entry x) d' =
          s.due out d' - if d' = d then 1 else 0 := by
        rw [hentry]
        exact due_of_slots hslots hd d'
      have hrest : ∀ d', (ds.count d' : Int) ≤ (s.step x).2.due (out + s.entry x) d' := by
        intro d'
        have hle := hdue d'
        rw [Due.count_cons] at hle
        rw [hafter]
        omega
      have hsettles : List.Forall₂ (s.step x).2.Settles xs ds :=
        Settles.forall_of_slots hslots hd hcontinues hxs (hentry ▸ hrest)
      obtain ⟨hdones, hnone, hend, hleft⟩ := ih horderly hsettles hrest
      rw [add_assoc] at hend hleft
      refine ⟨?_, ?_, hend, ?_⟩
      · rw [areDone, hdone, hdones]
        rfl
      · rw [logged, List.filter_append, hnone, List.append_nil]
        exact hfailures
      · intro d'
        have hdue' := hleft d'
        rw [hafter d'] at hdue'
        rw [Due.count_cons]
        change ((s.step x).2.after xs).due (out + (s.entry x + (s.step x).2.entries xs)) d' = _
        omega

/-- Where nothing is due there is no reference. -/
theorem Orderly.references_eq_zero (h : s.Orderly out) (hdue : ∀ d, s.due out d = 0) (z : Id) :
    s.world.store.references z = 0 := by
  apply h.balanced.sound.references_eq_zero
  intro y
  have hheld : s.slots.held y = 0 := by
    apply List.countP_eq_zero.mpr
    intro e he hy
    have hnone := hdue (.held e.1)
    rw [decide_eq_true_eq] at hy
    simp [due, h.balanced.named.find?_of_mem he, hy] at hnone
  have hout : out y = 0 := hdue (.handed y)
  rw [h.balanced.outside y (h.accountable y), hheld, hout]
  rfl

end State

/-- Giving up all references that are owned succeeds in any order, and no check fails. In the end
no entity has a reference. Of all entities that were ever made, each local object has been dropped
once, and what this side counts has been freed once. -/
theorem references_settled (e : Environment) (c : Option Settings) (xs : List Step) :
    let start := State.initial e c
    let s := start.after xs
    start.All State.Proceeds xs → s.world.IsOpen →
    (∀ z, s.world.store.HasRole z .sharedStructure → s.world.store.Accountable z) →
    (∀ z, 0 ≤ start.entries xs z) → ∀ ys, s.SettlesAll (start.entries xs) ys →
      s.areDone ys = true ∧ (s.logged ys).filter Event.isFailure = [] ∧
      ∀ z n, (s.after ys).world.store.get? z = some n →
        n.entity.references = 0 ∧
        (∀ v, n.entity = .sharedObject v → (start.logged (xs ++ ys)).count (.dropped z) = 1) ∧
        ∀ k, n.entity.sharedCount? = some k →
          (s.after ys).world.store.isFreed z = true ∧ start.destructions z (xs ++ ys) = 1 := by
  intro start s hxs hopen haccountable hnonneg ys hys
  obtain ⟨ds, hds, hdue⟩ := hys
  have hfirst := State.all_undisturbed hxs hopen
  have hbalanced : Balanced s (start.entries xs) := by
    have := (balanced_initial e c).along hfirst
    rwa [zero_add] at this
  have horderly : s.Orderly (start.entries xs) :=
    ⟨hbalanced, hopen, fun z => Store.accountable_of_structures (haccountable z), hnonneg⟩
  obtain ⟨hdone, hfailures, hend, hleft⟩ := horderly.settle_all hds fun d => (hdue d).le
  have hall := State.all_append hfirst (State.all_of_areDone hdone)
  refine ⟨hdone, hfailures, ?_⟩
  intro z n hn
  have hreferences : n.entity.references = 0 := by
    have hnone := hend.references_eq_zero (fun d => by rw [hleft d, hdue d, sub_self]) z
    rwa [Store.references, hn] at hnone
  have hfreed {k : Count} (hk : n.entity.sharedCount? = some k) :
      (s.after ys).world.store.isFreed z = true := by
    rw [hend.balanced.sound.isFreed_iff hn hk]
    rw [Entity.references_of_sharedCount? hk] at hreferences
    omega
  have hafter : start.after (xs ++ ys) = s.after ys := start.after_append xs ys
  refine ⟨hreferences, ?_, ?_⟩
  · intro v hv
    rw [← hafter] at hn hfreed
    exact count_dropped_of_isFreed hall (hfreed (k := v.count) (by rw [hv]; rfl)) hn hv
  · intro k hk
    refine ⟨hfreed hk, ?_⟩
    rw [← hafter] at hn hfreed
    exact destructions_of_isFreed hall (hfreed hk) hn hk

/-- Someone holds the proxy of a wrapper, someone else has leaked a reference to it, and the far
side has a reference to the wrapper. -/
def spreadOut : List Step := handedOn ++ [.handle (.clone "p" "q"), .handle (.leak "q" "r"),
  .struct (.call "w" "add_ref" .itself)]

/-- All of them give their references up. -/
def settled : List Step := [.struct (.call "w" "release" .itself), .handle (.drop "p"),
  .handle (.release "r")]

theorem due_spreadOut (d : Due) :
    (([.handed 1, .held "p", .held "r"] : List Due).count d : Int) =
      ((State.initial {} (some .default)).after spreadOut).due
        ((State.initial {} (some .default)).entries spreadOut) d := by
  have hslots : ((State.initial {} (some .default)).after spreadOut).slots =
      ⟨[("r", .leaked 2 .client), ("p", .handle 2 .client), ("w", .struct 1)]⟩ := rfl
  have hout : (State.initial {} (some .default)).entries spreadOut =
      0 + (credit (some 1) 1 + (credit (some 1) (-1) + (0 + (0 + (credit (some 1) 1 + 0))))) := rfl
  cases d with
  | held name =>
    rw [State.due, hslots]
    by_cases hr : name = "r"
    · subst hr
      rfl
    · by_cases hp : name = "p"
      · subst hp
        rfl
      · by_cases hw : name = "w"
        · subst hw
          rfl
        · simp [Slots.find?, List.lookup_cons, beq_eq_false_iff_ne.mpr, hr, hp, hw,
            Ne.symm hr, Ne.symm hp]
  | handed z =>
    rw [State.due, hout]
    by_cases hz : z = 1
    · subst hz
      rfl
    · simp [credit, Ne.symm hz]

/-- All three entities go, each of them once. -/
theorem references_settled_spreadOut :
    ((State.initial {} (some .default)).after spreadOut).areDone settled = true ∧
      ((State.initial {} (some .default)).logged (spreadOut ++ settled)).count (.dropped 0) = 1 ∧
      (State.initial {} (some .default)).destructions 1 (spreadOut ++ settled) = 1 ∧
      (State.initial {} (some .default)).destructions 2 (spreadOut ++ settled) = 1 := by
  have hxs : (State.initial {} (some .default)).All State.Proceeds spreadOut :=
    (State.all_of_areDone rfl).imp fun _ _ h => h.1
  have hopen : ((State.initial {} (some .default)).after spreadOut).world.IsOpen := nofun
  have haccountable : ∀ z,
      ((State.initial {} (some .default)).after spreadOut).world.store.Accountable z :=
    Store.accountable_of_nodes rfl
  have hout (z : Id) : 0 ≤ (State.initial {} (some .default)).entries spreadOut z := by
    have hdue := due_spreadOut (.handed z)
    change _ = (State.initial {} (some .default)).entries spreadOut z at hdue
    rw [← hdue]
    exact Int.natCast_nonneg _
  have hsettles : ((State.initial {} (some .default)).after spreadOut).SettlesAll
      ((State.initial {} (some .default)).entries spreadOut) settled :=
    ⟨_, .cons (.call rfl) (.cons (.drop rfl) (.cons (.release rfl) .nil)), due_spreadOut⟩
  obtain ⟨hdone, -, hend⟩ := references_settled {} (some .default) spreadOut hxs hopen
    (fun z _ => haccountable z) hout settled hsettles
  exact ⟨hdone, (hend 0 _ rfl).2.1 _ rfl, ((hend 1 _ rfl).2.2 _ rfl).2,
    ((hend 2 _ rfl).2.2 _ rfl).2⟩

/-- A wrapper has lost its `release`. -/
def clearedRelease : List Step := [.create (.sharedObject ⟨.client 7, none⟩) "a",
  .shared (.wrap .client (some "a") "w"), .struct (.clear "w" "release")]

/-- Without the member a reference to a wrapper cannot be given up. -/
theorem not_references_settled_cleared :
    ¬ ∀ e c xs,
      let start := State.initial e c
      let s := start.after xs
      start.All State.Proceeds xs → s.world.IsOpen →
      (∀ z, s.world.store.HasRole z .sharedStructure → s.world.store.wrapperTag? z = none →
        s.world.store.Accountable z) →
      (∀ z, 0 ≤ start.entries xs z) → ∀ ys, s.SettlesAll (start.entries xs) ys →
      ∀ z n, (s.after ys).world.store.get? z = some n → n.entity.references = 0 := by
  intro h
  have hslots : ((State.initial {} (some .default)).after clearedRelease).slots =
      ⟨[("w", .struct 1)]⟩ := rfl
  have hout : (State.initial {} (some .default)).entries clearedRelease =
      0 + (credit (some 1) 1 + (0 + 0)) := rfl
  have hxs : (State.initial {} (some .default)).All State.Proceeds clearedRelease :=
    (State.all_of_areDone rfl).imp fun _ _ h => h.1
  have hreferences := h {} (some .default) clearedRelease hxs nofun ?_ ?_
    [.struct (.call "w" "release" .itself)] ⟨[.handed 1], .cons (.call rfl) .nil, ?_⟩ 0 _ rfl
  · exact absurd hreferences (by decide)
  · intro z _ hnone n hn
    match z with
    | 0 => cases hn; rfl
    | 1 => cases hnone
    | z + 2 => cases hn
  · intro z
    rw [hout]
    by_cases hz : z = 1
    · subst hz
      decide
    · simp [credit, Ne.symm hz]
  · intro d
    cases d with
    | held name =>
      rw [State.due, hslots]
      by_cases hw : name = "w"
      · subst hw
        rfl
      · simp [Slots.find?, List.lookup_cons, beq_eq_false_iff_ne.mpr, hw]
    | handed z =>
      rw [State.due, hout]
      by_cases hz : z = 1
      · subst hz
        rfl
      · simp [credit, Ne.symm hz]

end ObjectBoundary.Session
