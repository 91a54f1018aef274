import ObjectBoundary.Proofs.Session.Tracking

/-!
# One reference along a chain

A step that takes a reference to an entity changes the counts of the whole chain of the entity by
one, and nothing else of any entity. One that gives a reference up does the reverse, and what it
destroys is the upper part of the chain.

* `State.Intact`: a chain of which nobody gives up more references than there are.
* `State.Takes.spec`, `State.Gives.spec`: what such steps do to a chain.
* `references_along_chain`: what they destroy and what they answer.
* `not_references_along_chain_cleared`: it takes the members that count references.
-/

namespace ObjectBoundary.Session

open ObjectBoundary

variable {s : State} {x : Step} {out : Ledger} {z : Id}

/-! ## Whole chains -/

theorem State.Takes.one_le (hx : s.Takes x z) (h : Balanced s out) :
    1 ≤ s.world.store.references z := by
  cases hx with
  | clone hsource hname => exact h.one_le_references hsource rfl
  | retain hsource hname => exact h.one_le_references hsource rfl
  | call hsource hr href => exact href
  | wrapper hsource htag href => exact href
  | target hsource hn href => exact href

theorem State.Gives.one_le (hx : s.Gives x z) (h : Balanced s out) :
    1 ≤ s.world.store.references z := by
  cases hx with
  | drop hsource => exact h.one_le_references hsource rfl
  | release hsource => exact h.one_le_references hsource rfl
  | call hsource hr href => exact href
  | wrapper hsource htag href => exact href
  | target hsource hn href => exact href

/-- Nobody has given up more references to a structure of the chain than there were, and all of
them have the members that count references. -/
def State.Intact (s : State) (out : Ledger) (z : Id) : Prop :=
  ∀ y ∈ s.world.store.chain z, s.world.store.Accountable y ∧ 0 ≤ out y

section Whole

variable (h : Balanced s out) (hz : s.Intact out z) (href : 1 ≤ s.world.store.references z)
include h hz

theorem State.Intact.accountable : s.world.store.Accountable z := by
  refine (hz z ?_).1
  rw [Store.chain_eq_cons h.sound.earlier]
  exact List.mem_cons_self

theorem State.Intact.outside_nonneg : ∀ y ∈ s.world.store.chain z,
    0 ≤ s.world.store.outside y := by
  intro y hy
  obtain ⟨ha, hout⟩ := hz y hy
  rw [h.outside y ha]
  omega

include href

theorem State.Intact.upheld : s.world.store.Upheld (s.world.store.chain z) :=
  (h.sound.upheld_chain href (hz.outside_nonneg h)).1

theorem State.Intact.reach_eq {position : Nat}
    (hp : position = Layout.addRef ∨ position = Layout.release) :
    s.world.store.reach position (s.world.store.chain z) = s.world.store.chain z :=
  Store.Linked.reach_eq_chain h.sound.linked hp (hz.upheld h href) fun y hy => (hz y hy).1

end Whole

/-! ## What becomes of a chain -/

/-- Taking a reference raises all counts of a chain, and nothing else happens to any entity. -/
theorem State.Takes.spec (h : Balanced s out) (hz : s.Intact out z) (hx : s.Takes x z)
    (hrise : s.world.store.CanRise (s.world.store.chain z)) :
    s.isDone x = true ∧
      (s.step x).2.world.store = s.world.store.modifyAll (s.world.store.chain z) Node.raised := by
  have href := hx.one_le h
  have hup := hz.upheld h href
  have htracks := hx.tracks h.sound (hz.accountable h)
  have hdone := htracks.isDone (Act.does_retain (w := s.begun) h.sound hup hrise)
  refine ⟨hdone, ?_⟩
  obtain ⟨-, hretained, -⟩ := htracks.of_isDone (U := fun _ _ => True)
    (Act.ends_retain (w := s.begun) h.sound.earlier z) hdone
  rw [hretained.adjusted.store]
  exact congrArg (s.world.store.modifyAll · Node.raised) (hz.reach_eq h href (Or.inl rfl))

/-- Giving a reference up lowers all counts of a chain. -/
theorem State.Gives.spec (h : Balanced s out) (hz : s.Intact out z) (hx : s.Gives x z) :
    (s.world.IsTolerant → s.isDone x = true) ∧ (s.isDone x = true →
      s.begun.Adjusted (s.step x).2.world Node.lowered (-1) (s.world.store.chain z) ∧
      ∀ n, s.world.store.get? z = some n →
        (s.step x).1.outcome = .done (x.reply n.entity.releaseAnswer)) := by
  have href := hx.one_le h
  have hup := hz.upheld h href
  have htracks := hx.tracks h.sound (hz.accountable h)
  refine ⟨fun ht => htracks.isDone (Act.does_release (w := s.begun) h.sound ht hup),
    fun hdone => ?_⟩
  obtain ⟨a, ⟨hreleased, hanswer⟩, houtcome⟩ :=
    htracks.of_isDone (Act.ends_release (w := s.begun) h.sound z) hdone
  refine ⟨?_, fun n hn => by rw [houtcome, hanswer n hn]⟩
  rw [← hz.reach_eq h href (Or.inr rfl)]
  exact hreleased.adjusted

/-! ## What a step destroys of a chain -/

section Effect

variable {f : Node → Node}

theorem get?_of_modifyAll (hs : s.world.store.Sound)
    (h : (s.step x).2.world.store = s.world.store.modifyAll (s.world.store.chain z) f) (y : Id) :
    (s.step x).2.world.store.get? y = if y ∈ s.world.store.chain z
      then (s.world.store.get? y).map f else s.world.store.get? y := by
  rw [h]
  exact Store.get?_modifyAll (Store.chain_nodup hs.earlier z) _ _ y

/-- Where references are taken, all counts of the chain rise. -/
theorem references_of_raised (hs : s.world.store.Sound)
    (hup : s.world.store.Upheld (s.world.store.chain z))
    (hrise : s.world.store.CanRise (s.world.store.chain z))
    (h : (s.step x).2.world.store = s.world.store.modifyAll (s.world.store.chain z) Node.raised)
    (y : Id) : (s.step x).2.world.store.references y =
      s.world.store.references y + (if y ∈ s.world.store.chain z then 1 else 0) := by
  rw [h]
  refine Store.references_modifyAll (Store.chain_nodup hs.earlier z) (fun w hw => ?_) y
  obtain ⟨n, hn, -, hshared⟩ := hup w hw
  exact ⟨n, hn, Node.references_raised hshared (hrise w hw n hn)⟩

/-- Nothing is destroyed where references are taken. -/
theorem not_destroys_of_raised (hs : s.world.store.Sound)
    (h : (s.step x).2.world.store = s.world.store.modifyAll (s.world.store.chain z) Node.raised)
    (y : Id) : s.destroys x y = false := by
  have hsame : (s.step x).2.world.store.isFreed y = s.world.store.isFreed y := by
    rw [Store.isFreed, get?_of_modifyAll hs h, Store.isFreed]
    split
    · cases s.world.store.get? y with
      | none => rfl
      | some n => exact Node.isFreed_raised n
    · rfl
  rw [State.destroys, hsame, Bool.not_and_self]

section Lowered

variable (hs : s.world.store.Sound) (hup : s.world.store.Upheld (s.world.store.chain z))
  (h : (s.step x).2.world.store = s.world.store.modifyAll (s.world.store.chain z) Node.lowered)
include hs hup h

/-- Where references are given up, all counts of the chain fall. -/
theorem references_of_lowered (y : Id) : (s.step x).2.world.store.references y =
    s.world.store.references y + (if y ∈ s.world.store.chain z then -1 else 0) := by
  rw [h]
  refine Store.references_modifyAll (Store.chain_nodup hs.earlier z) (fun w hw => ?_) y
  obtain ⟨n, hn, hlive, hshared⟩ := hup w hw
  exact ⟨n, hn, Node.references_lowered (hs.counted w n hn) hlive hshared⟩

/-- Of a chain, giving a reference up destroys what has no other. -/
theorem destroys_iff_of_lowered (y : Id) : s.destroys x y = true ↔
    s.world.store.isFreed y = false ∧
      y ∈ s.world.store.chain z ∧ (s.step x).2.world.store.references y = 0 := by
  have hget := get?_of_modifyAll hs h y
  rw [State.destroys, Bool.and_eq_true, Bool.not_eq_true', Store.isFreed, Store.isFreed,
    Store.references, hget]
  by_cases hy : y ∈ s.world.store.chain z
  · obtain ⟨n, hn, hlive, hshared⟩ := hup y hy
    have hiff := Node.isFreed_lowered_iff (hs.counted y n hn) hlive hshared
    rw [if_pos hy, hn]
    show n.isFreed = false ∧ n.lowered.isFreed = true ↔
      n.isFreed = false ∧ y ∈ s.world.store.chain z ∧ n.lowered.entity.references = 0
    rw [hiff]
    constructor
    · rintro ⟨hf, hf' | hzero⟩
      · exact absurd (hf.symm.trans hf') Bool.false_ne_true
      · exact ⟨hf, hy, hzero⟩
    · rintro ⟨hf, -, hzero⟩
      exact ⟨hf, Or.inr hzero⟩
  · rw [if_neg hy]
    constructor
    · rintro ⟨hf, hf'⟩
      exact absurd (hf.symm.trans hf') Bool.false_ne_true
    · rintro ⟨-, hy', -⟩
      exact absurd hy' hy

/-- What this side counts is destroyed if the reference that is given up was the only one. -/
theorem isOne_eq_destroys {n : Node} {c : Count} (hn : s.world.store.get? z = some n)
    (hc : n.entity.sharedCount? = some c) (href : 1 ≤ s.world.store.references z) :
    c.isOne = s.destroys x z := by
  have hcount : s.world.store.references z = c.toNat := by
    rw [Store.references, hn]
    exact Entity.references_of_sharedCount? hc
  have hmem : z ∈ s.world.store.chain z := by
    rw [Store.chain_eq_cons hs.earlier]
    exact List.mem_cons_self
  have hfreed : s.world.store.isFreed z = false := by
    rw [← Bool.not_eq_true, hs.isFreed_iff hn hc]
    omega
  have hafter := references_of_lowered hs hup h z
  rw [if_pos hmem, hcount] at hafter
  rw [Bool.eq_iff_iff, destroys_iff_of_lowered hs hup h z, Count.isOne_iff]
  constructor
  · intro hone
    exact ⟨hfreed, hmem, by omega⟩
  · intro hgone
    have hzero := hgone.2.2
    omega

end Lowered

/-- What has no reference left once one is given up is the upper part of the chain. -/
theorem exists_prefix_of_lowered (h : Balanced s out) (hz : s.Intact out z)
    (href : 1 ≤ s.world.store.references z)
    (hlowered : (s.step x).2.world.store =
      s.world.store.modifyAll (s.world.store.chain z) Node.lowered) :
    ∃ l, l <+: s.world.store.chain z ∧ ∀ y, y ∈ l ↔
      y ∈ s.world.store.chain z ∧ (s.step x).2.world.store.references y = 0 := by
  have hout := hz.outside_nonneg h
  have hleast : ∀ y ∈ s.world.store.chain z, 1 ≤ s.world.store.references y := by
    intro y hy
    exact href.trans ((h.sound.upheld_chain href hout).2 y hy)
  obtain ⟨l, hprefix, hmem⟩ :=
    exists_prefix_of_pairwise (h.sound.chain_pairwise href hout) hleast
  refine ⟨l, hprefix, ?_⟩
  intro y
  rw [hmem y, references_of_lowered h.sound (hz.upheld h href) hlowered y]
  apply and_congr_right
  intro hy
  rw [if_pos hy]
  omega

end Effect

/-- What this side counts answers whether it was destroyed. -/
theorem releaseAnswer_eq {n : Node} {c : Count} (hc : n.entity.sharedCount? = some c) :
    n.entity.releaseAnswer = Act.truth c.isOne := by
  cases hn : n.entity <;> rw [hn] at hc <;> cases hc <;> rfl

/-! ## One reference -/

/-- Taking a reference raises the counts of a chain by one, where none is at the limit. Giving one
up lowers them by one and destroys what has no reference left, which is the upper part of the
chain; what this side counts answers whether it was destroyed itself. No other entity changes. -/
theorem references_along_chain (h : Reachable State.Undisturbed s out) (hz : s.Intact out z) :
    (∀ x, s.Takes x z → s.world.store.CanRise (s.world.store.chain z) →
      s.isDone x = true ∧
      (∀ y, (s.step x).2.world.store.get? y = if y ∈ s.world.store.chain z
        then (s.world.store.get? y).map Node.raised else s.world.store.get? y) ∧
      ∀ y, (s.step x).2.world.store.references y =
          s.world.store.references y + (if y ∈ s.world.store.chain z then 1 else 0) ∧
        s.destroys x y = false) ∧
    ∀ x, s.Gives x z →
      (s.world.IsTolerant → s.isDone x = true) ∧
      (s.isDone x = true →
        (∀ y, (s.step x).2.world.store.get? y = if y ∈ s.world.store.chain z
          then (s.world.store.get? y).map Node.lowered else s.world.store.get? y) ∧
        (∀ y, (s.step x).2.world.store.references y =
            s.world.store.references y + (if y ∈ s.world.store.chain z then -1 else 0) ∧
          (s.destroys x y = true ↔ s.world.store.isFreed y = false ∧
            y ∈ s.world.store.chain z ∧ (s.step x).2.world.store.references y = 0)) ∧
        (∃ l, l <+: s.world.store.chain z ∧ ∀ y, y ∈ l ↔
          y ∈ s.world.store.chain z ∧ (s.step x).2.world.store.references y = 0) ∧
        ∀ n c, s.world.store.get? z = some n → n.entity.sharedCount? = some c →
          (s.step x).1.outcome = .done (x.reply (Act.truth (s.destroys x z)))) := by
  have hbalanced := h.balanced
  have hs := hbalanced.sound
  constructor
  · intro x hx hrise
    have hup := hz.upheld hbalanced (hx.one_le hbalanced)
    obtain ⟨hdone, hstore⟩ := hx.spec hbalanced hz hrise
    refine ⟨hdone, get?_of_modifyAll hs hstore, ?_⟩
    intro y
    exact ⟨references_of_raised hs hup hrise hstore y, not_destroys_of_raised hs hstore y⟩
  · intro x hx
    have href := hx.one_le hbalanced
    have hup := hz.upheld hbalanced href
    obtain ⟨hdoes, hspec⟩ := hx.spec hbalanced hz
    refine ⟨hdoes, ?_⟩
    intro hdone
    obtain ⟨hadjusted, hanswer⟩ := hspec hdone
    have hstore := hadjusted.store
    change (s.step x).2.world.store = s.world.store.modifyAll _ _ at hstore
    refine ⟨get?_of_modifyAll hs hstore, ?_, exists_prefix_of_lowered hbalanced hz href hstore, ?_⟩
    · intro y
      exact ⟨references_of_lowered hs hup hstore y, destroys_iff_of_lowered hs hup hstore y⟩
    · intro n c hn hc
      rw [hanswer n hn, releaseAnswer_eq hc, isOne_eq_destroys hs hup hstore hn hc href]

theorem forall_mem_three {q : Id → Prop} {a b c : Id} (ha : q a) (hb : q b) (hc : q c) :
    ∀ y ∈ [a, b, c], q y := by
  simp [ha, hb, hc]

/-- The proxy of a wrapper of an object: a handle to it has a reference to all three. -/
theorem references_along_chain_handedOn :
    let s := (State.initial {} (some .default)).after handedOn
    let clone : Step := .handle (.clone "p" "q")
    let drop : Step := .handle (.drop "p")
    (∀ y, (s.step clone).2.world.store.references y =
        s.world.store.references y + if y ∈ s.world.store.chain 2 then 1 else 0) ∧
      s.isDone drop = true ∧ s.destroys drop 2 = true ∧ s.destroys drop 1 = true ∧
      s.destroys drop 0 = true := by
  intro s clone drop
  have h : Reachable State.Undisturbed s _ :=
    (Reachable.initial {} (some .default)).after handedOn rfl
  have hchain : s.world.store.chain 2 = [2, 1, 0] := rfl
  have hz : s.Intact (0 + (State.initial {} (some .default)).entries handedOn) 2 := by
    rw [State.Intact, hchain]
    refine forall_mem_three ⟨?_, Int.le_refl 0⟩ ⟨?_, Int.le_refl 0⟩ ⟨?_, Int.le_refl 0⟩ <;>
      (rintro n ⟨⟩; rfl)
  have hrise : s.world.store.CanRise (s.world.store.chain 2) := by
    rw [Store.CanRise, hchain]
    refine forall_mem_three ?_ ?_ ?_ <;> (rintro n ⟨⟩; rfl)
  obtain ⟨htakes, hgives⟩ := references_along_chain h hz
  obtain ⟨-, -, hraised⟩ := htakes clone (.clone rfl rfl) hrise
  obtain ⟨hdone, hlowered⟩ := hgives drop (.drop rfl)
  have hdone := hdone (nofun : s.world.IsTolerant)
  obtain ⟨-, hdestroys, -, -⟩ := hlowered hdone
  rw [hchain] at hdestroys
  refine ⟨fun y => (hraised y).1, hdone, ?_, ?_, ?_⟩
  · exact (hdestroys 2).2.mpr ⟨rfl, by decide, rfl⟩
  · exact (hdestroys 1).2.mpr ⟨rfl, by decide, rfl⟩
  · exact (hdestroys 0).2.mpr ⟨rfl, by decide, rfl⟩

/-- Without the member of the wrapper in the middle, a reference to the proxy reaches no further
than the proxy. -/
theorem not_references_along_chain_cleared :
    ¬ ∀ s out, Reachable State.Undisturbed s out → ∀ z,
      (∀ y ∈ s.world.store.chain z, 0 ≤ out y ∧
        (s.world.store.wrapperTag? y = none → s.world.store.Accountable y)) →
      ∀ x, s.Takes x z → s.world.store.CanRise (s.world.store.chain z) →
      ∀ y ∈ s.world.store.chain z,
        (s.step x).2.world.store.references y = s.world.store.references y + 1 := by
  intro h
  have hreachable := (Reachable.initial {} (some .default)).after clearedBelow rfl
  have hchain : ((State.initial {} (some .default)).after clearedBelow).world.store.chain 2 =
      [2, 1, 0] := rfl
  have hbefore : ((State.initial {} (some .default)).after clearedBelow).world.store.references 0 =
      1 := rfl
  have hafter : (((State.initial {} (some .default)).after clearedBelow).step
      (.handle (.clone "p" "q"))).2.world.store.references 0 = 1 := rfl
  have hrises := h _ _ hreachable 2 ?_ (.handle (.clone "p" "q")) (.clone rfl rfl) ?_ 0 ?_
  · rw [hbefore, hafter] at hrises
    exact absurd hrises (by decide)
  · rw [hchain]
    refine forall_mem_three ⟨Int.le_refl 0, fun _ => ?_⟩ ⟨Int.le_refl 0, nofun⟩
      ⟨Int.le_refl 0, fun _ => ?_⟩ <;> (rintro n ⟨⟩; rfl)
  · rw [Store.CanRise, hchain]
    refine forall_mem_three ?_ ?_ ?_ <;> (rintro n ⟨⟩; rfl)
  · rw [hchain]
    decide

end ObjectBoundary.Session
