import ObjectBoundary.Proofs.References.Single

/-!
# How far a reference reaches

Taking or giving up a reference to an entity changes its count and those of the entities below
it, as far as proxies pass it on: a proxy hands it to its structure through a function member,
and a null member is skipped.

* `Store.reach`: the part of a chain whose counts change.
* `Store.modifyAll`: a change of several entities.
* `World.Adjusted`: the counts of several entities have changed by one, and nothing else.
* `World.Adjusted.moves`: changing all counts in reach moves one reference to the first entity.
-/

namespace ObjectBoundary

namespace Store

/-- Whether the function member at a position of the structure of an entity is set. -/
def isSet (st : Store) (s : Id) (position : Nat) : Bool :=
  ((st.get? s).bind fun n => n.entity.struct?).any fun t => t.isSet position

theorem isSet_eq {st : Store} {s : Id} {n : Node} {t : Structure} (hn : st.get? s = some n)
    (ht : n.entity.struct? = some t) (position : Nat) : st.isSet s position = t.isSet position := by
  simp [isSet, hn, ht]

/-- An entity, if its structure offers the function member at a position. -/
def callable (st : Store) (s : Id) (position : Nat) : Option Id :=
  if st.isSet s position then some s else none

/-- Whether a reference to an entity is handed to the one below it. -/
def passes (st : Store) (position : Nat) : Entity → Bool
  | .sharedWrapper _ => true
  | .sharedProxy p => st.isSet p.target position
  | _ => false

/-- The part of a chain that a reference reaches, where proxies hand it on through the member at
a position. -/
def reach (st : Store) (position : Nat) : List Id → List Id
  | [] => []
  | x :: below =>
    x :: if (st.get? x).any fun n => st.passes position n.entity then reach st position below
      else []

theorem reach_cons_of_passes {st : Store} {position : Nat} {x : Id} {n : Node}
    (hn : st.get? x = some n) (hp : st.passes position n.entity = true) (below : List Id) :
    st.reach position (x :: below) = x :: st.reach position below := by
  simp [reach, hn, hp]

theorem reach_cons_of_not_passes {st : Store} {position : Nat} {x : Id} {n : Node}
    (hn : st.get? x = some n) (hp : st.passes position n.entity = false) (below : List Id) :
    st.reach position (x :: below) = [x] := by
  simp [reach, hn, hp]

theorem reach_subset (st : Store) (position : Nat) (xs : List Id) :
    ∀ y ∈ st.reach position xs, y ∈ xs := by
  induction xs with
  | nil => intro y hy; exact hy
  | cons x below ih =>
    intro y hy
    rw [reach, List.mem_cons] at hy
    rcases hy with rfl | hy
    · exact List.mem_cons_self
    · split at hy
      · exact List.mem_cons_of_mem _ (ih y hy)
      · cases hy

theorem reach_nodup {xs : List Id} (h : xs.Nodup) (st : Store) (position : Nat) :
    (st.reach position xs).Nodup := by
  induction xs with
  | nil => exact List.nodup_nil
  | cons x below ih =>
    obtain ⟨hx, hbelow⟩ := List.nodup_cons.mp h
    rw [reach, List.nodup_cons]
    split
    · exact ⟨fun hmem => hx (reach_subset _ _ _ _ hmem), ih hbelow⟩
    · exact ⟨List.not_mem_nil, List.nodup_nil⟩

/-! ## Chains of sound stores -/

/-- Every link leads to an earlier entity of the right role. -/
def Linked (st : Store) : Prop :=
  ∀ x n y, st.get? x = some n → n.entity.below? = some y → y < x ∧ st.HasRole y n.entity.linkRole

theorem Linked.earlier {st : Store} (h : st.Linked) (x y : Id) (hy : st.below? x = some y) :
    y < x := by
  obtain ⟨n, hn, hbelow⟩ := Option.bind_eq_some_iff.mp hy
  exact (h x n y hn hbelow).1

theorem mem_chain_self {st : Store} (earlier : ∀ x y, st.below? x = some y → y < x) (x : Id) :
    x ∈ st.chain x := by
  rw [chain_eq_cons earlier]
  exact List.mem_cons_self

theorem chain_of_below {st : Store} (earlier : ∀ x y, st.below? x = some y → y < x) {x y : Id}
    {n : Node} (hn : st.get? x = some n) (hy : n.entity.below? = some y) :
    st.chain x = x :: st.chain y := by
  rw [chain_eq_cons earlier, below?, hn, Option.bind_some, hy, Option.elim_some]

/-- What lies below an entity is in its chain. -/
theorem mem_chain_of_below {st : Store} (earlier : ∀ x y, st.below? x = some y → y < x) {x y : Id}
    (hy : st.below? x = some y) : ∀ z ∈ st.chain y, z ∈ st.chain x := by
  rw [chain_eq_cons earlier x, hy]
  exact fun z hz => List.mem_cons_of_mem x hz

theorem mem_chain_trans {st : Store} (earlier : ∀ x y, st.below? x = some y → y < x) {x y z : Id}
    (hy : y ∈ st.chain x) (hz : z ∈ st.chain y) : z ∈ st.chain x := by
  induction x using Nat.strongRecOn with
  | ind x ih =>
    rw [chain_eq_cons earlier] at hy
    rcases List.mem_cons.mp hy with rfl | hy
    · exact hz
    · cases hb : st.below? x with
      | none => rw [hb] at hy; cases hy
      | some u =>
        rw [hb, Option.elim_some] at hy
        exact mem_chain_of_below earlier hb z (ih u (earlier x u hb) hy)

theorem chain_le {st : Store} (earlier : ∀ x y, st.below? x = some y → y < x) (x : Id) :
    ∀ y ∈ st.chain x, y ≤ x := by
  induction x using Nat.strongRecOn with
  | ind x ih =>
    intro y hy
    rw [chain_eq_cons earlier, List.mem_cons] at hy
    rcases hy with rfl | hy
    · exact Nat.le_refl _
    · cases hb : st.below? x with
      | none => rw [hb] at hy; cases hy
      | some z =>
        rw [hb] at hy
        have hlt := earlier x z hb
        exact Nat.le_of_lt (Nat.lt_of_le_of_lt (ih z hlt y hy) hlt)

/-- Along a chain an entity lies directly below one other at most. -/
theorem eq_of_mem_chain {st : Store} (earlier : ∀ x y, st.below? x = some y → y < x)
    {x y z u : Id} (hy : y ∈ st.chain x) (hz : z ∈ st.chain x) (hyu : st.below? y = some u)
    (hzu : st.below? z = some u) : y = z := by
  induction x using Nat.strongRecOn with
  | ind x ih =>
    have hdown {a b : Id} (ha : st.below? a = some u) (hb : st.below? b = some u)
        (hmem : b ∈ (st.below? a).elim [] st.chain) : False := by
      rw [ha, Option.elim_some] at hmem
      exact absurd (chain_le earlier u b hmem) (Nat.not_le_of_lt (earlier b u hb))
    rw [chain_eq_cons earlier, List.mem_cons] at hy hz
    rcases hy with rfl | hy
    · rcases hz with rfl | hz
      · rfl
      · exact (hdown hyu hzu hz).elim
    · rcases hz with rfl | hz
      · exact (hdown hzu hyu hy).elim
      · cases hb : st.below? x with
        | none => rw [hb] at hy; cases hy
        | some v =>
          rw [hb] at hy hz
          exact ih v (earlier x v hb) hy hz

theorem chain_nodup {st : Store} (earlier : ∀ x y, st.below? x = some y → y < x) (x : Id) :
    (st.chain x).Nodup := by
  induction x using Nat.strongRecOn with
  | ind x ih =>
    rw [chain_eq_cons earlier, List.nodup_cons]
    cases hb : st.below? x with
    | none => exact ⟨List.not_mem_nil, List.nodup_nil⟩
    | some z =>
      have hlt := earlier x z hb
      refine ⟨fun hmem => ?_, ih z hlt⟩
      exact absurd (chain_le earlier z x hmem) (Nat.not_le_of_lt hlt)

/-- What lies above an entity is not reached from it. -/
theorem not_mem_reach_chain {st : Store} (earlier : ∀ x y, st.below? x = some y → y < x)
    {x y : Id} (hlt : y < x) (position : Nat) : x ∉ st.reach position (st.chain y) := fun hmem =>
  absurd (chain_le earlier y x (reach_subset _ _ _ _ hmem)) (Nat.not_le_of_lt hlt)

/-! ## Changing several entities -/

/-- Changes the entities of a list, the last one first. -/
def modifyAll (st : Store) (xs : List Id) (f : Node → Node) : Store :=
  xs.foldr (fun x st => st.modify x f) st

@[simp] theorem modifyAll_nil (st : Store) (f : Node → Node) : st.modifyAll [] f = st := rfl

@[simp] theorem modifyAll_cons (st : Store) (x : Id) (xs : List Id) (f : Node → Node) :
    st.modifyAll (x :: xs) f = (st.modifyAll xs f).modify x f := rfl

@[simp] theorem size_modifyAll (st : Store) (xs : List Id) (f : Node → Node) :
    (st.modifyAll xs f).size = st.size := by
  induction xs with
  | nil => rfl
  | cons x xs ih => rw [modifyAll_cons, size_modify, ih]

theorem get?_modifyAll {xs : List Id} (h : xs.Nodup) (st : Store) (f : Node → Node) (y : Id) :
    (st.modifyAll xs f).get? y = if y ∈ xs then (st.get? y).map f else st.get? y := by
  induction xs with
  | nil => rfl
  | cons x xs ih =>
    obtain ⟨hx, hxs⟩ := List.nodup_cons.mp h
    rw [modifyAll_cons, get?_modify, ih hxs]
    by_cases hxy : x = y
    · subst hxy
      rw [if_pos rfl, if_neg hx, if_pos List.mem_cons_self]
    · simp only [if_neg hxy, List.mem_cons, Ne.symm hxy, false_or]

theorem references_modifyAll {xs : List Id} (h : xs.Nodup) {st : Store} {f : Node → Node} {d : Int}
    (hf : ∀ x ∈ xs, ∃ n, st.get? x = some n ∧ (f n).entity.references = n.entity.references + d)
    (z : Id) :
    (st.modifyAll xs f).references z = st.references z + if z ∈ xs then d else 0 := by
  unfold references
  rw [get?_modifyAll h]
  by_cases hz : z ∈ xs
  · obtain ⟨n, hn, hd⟩ := hf z hz
    rw [if_pos hz, if_pos hz, hn]
    exact hd
  · rw [if_neg hz, if_neg hz, add_zero]

theorem get?_modifyAll_of_not_mem {xs : List Id} (st : Store) (f : Node → Node) {y : Id}
    (h : y ∉ xs) : (st.modifyAll xs f).get? y = st.get? y := by
  induction xs with
  | nil => rfl
  | cons x xs ih =>
    have hne : ¬ x = y := fun he => h (he ▸ List.mem_cons_self)
    rw [modifyAll_cons, get?_modify, if_neg hne, ih fun hmem => h (List.mem_cons_of_mem _ hmem)]

theorem ext_get? {st st' : Store} (h : ∀ x, st.get? x = st'.get? x) : st = st' := by
  obtain ⟨l⟩ := st
  obtain ⟨l'⟩ := st'
  exact congrArg Store.mk (List.ext_getElem? h)

theorem modify_congr {st : Store} {x : Id} {f g : Node → Node}
    (h : ∀ n, st.get? x = some n → f n = g n) : st.modify x f = st.modify x g := by
  apply ext_get?
  intro y
  rw [get?_modify, get?_modify]
  split
  · rename_i hx
    subst hx
    exact Option.map_congr fun n hn => h n hn
  · rfl

theorem modify_modify (st : Store) (x : Id) (f g : Node → Node) :
    (st.modify x f).modify x g = st.modify x (g ∘ f) := by
  refine ext_get? fun y => ?_
  simp only [get?_modify]
  split
  · rw [Option.map_map]
  · rfl

/-- Where links stay, so do chains. -/
theorem chain_modifyAll (st : Store) (xs : List Id) {f : Node → Node}
    (keeps : ∀ n, (f n).entity.below? = n.entity.below?) (x : Id) :
    (st.modifyAll xs f).chain x = st.chain x := by
  refine chain_congr ?_ x
  induction xs with
  | nil => rfl
  | cons y xs ih => exact (below?_modify _ y keeps).trans ih

/-! ## Moves along a chain -/

/-- What is needed of all entities whose counts change. -/
def AllShift (st : Store) (xs : List Id) (f : Node → Node) (d : Int) : Prop :=
  ∀ x ∈ xs, ∃ n, st.get? x = some n ∧ n.Shifts (f n) d

theorem backing?_eq_below? {e : Entity} {y : Id} (h : e.backing? = some y) :
    e.below? = some y := by
  cases e <;> first | exact h | cases h

/-- A shared structure of which such a member is null does not count. -/
theorem not_accountable_of_not_isSet {st : Store} {position : Nat}
    (hp : position = Layout.addRef ∨ position = Layout.release) {s : Id}
    (hset : st.isSet s position = false) (hr : st.HasRole s .sharedStructure) :
    ¬ st.Accountable s := by
  obtain ⟨m, hm, hrole⟩ := hr
  intro ha
  have hcounts := ha m hm
  obtain ⟨name, e, live⟩ := m
  cases e with
  | sharedWrapper w =>
    rw [isSet_eq hm rfl, Structure.isSet_of_counts hcounts hp] at hset
    cases hset
  | sharedFar f =>
    rw [isSet_eq hm rfl, Structure.isSet_of_counts hcounts hp] at hset
    cases hset
  | _ => cases hrole

/-- What does not pass a reference on refers, if to anything, to a structure that does not
count. -/
theorem not_accountable_of_not_passes {st : Store} {position : Nat}
    (hp : position = Layout.addRef ∨ position = Layout.release) {e : Entity} {y : Id}
    (hpass : st.passes position e = false) (hy : e.backing? = some y)
    (hr : st.HasRole y e.linkRole) : ¬ st.Accountable y := by
  obtain ⟨m, hm, hrole⟩ := hr
  cases e with
  | sharedWrapper w => cases hpass
  | sharedProxy p =>
    cases hy
    exact not_accountable_of_not_isSet hp hpass ⟨m, hm, hrole⟩
  | _ => cases hy

theorem below?_of_passes {st : Store} {position : Nat} {e : Entity}
    (hpass : st.passes position e = true) : ∃ y, e.backing? = some y ∧ e.below? = some y := by
  cases e with
  | sharedWrapper w => exact ⟨_, rfl, rfl⟩
  | sharedProxy p => exact ⟨_, rfl, rfl⟩
  | _ => cases hpass

theorem below?_eq_some {st : Store} {x : Id} {n : Node} (hn : st.get? x = some n) :
    st.below? x = n.entity.below? := by
  rw [below?, hn]
  rfl

/-- Changing all counts in reach of an entity by one number changes what is outside of that
entity alone: what the others gain, the entity before them owns. -/
theorem outside_modifyAll {st : Store} (h : st.Sound) {position : Nat}
    (hp : position = Layout.addRef ∨ position = Layout.release) {f : Node → Node} {d : Int}
    (x : Id) (hf : st.AllShift (st.reach position (st.chain x)) f d) :
    let st' := st.modifyAll (st.reach position (st.chain x)) f
    st'.Sound ∧ st.Continues st' ∧
      ∀ z, st'.Accountable z → st'.outside z = st.outside z + credit (some x) d z := by
  induction x using Nat.strongRecOn with
  | ind x ih =>
    have hchain := chain_eq_cons h.earlier x
    obtain ⟨n, hn, hshift⟩ := hf x (by rw [hchain, reach]; exact List.mem_cons_self)
    cases hpass : st.passes position n.entity with
    | true =>
      obtain ⟨y, hback, hbelow⟩ := below?_of_passes hpass
      have hxy : st.below? x = some y := (below?_eq_some hn).trans hbelow
      have hlt := h.earlier x y hxy
      rw [hxy, Option.elim_some] at hchain
      rw [hchain, reach_cons_of_passes hn hpass] at hf ⊢
      obtain ⟨hsound, hcont, hout⟩ := ih y hlt fun z hz => hf z (List.mem_cons_of_mem _ hz)
      have hx := not_mem_reach_chain h.earlier hlt position
      have hn' := (get?_modifyAll_of_not_mem st f hx).trans hn
      refine ⟨sound_modify hsound hn' hshift.continues hshift.counted,
        hcont.trans (continues_modify hn' hshift.continues), fun z hz => ?_⟩
      have hz' := (continues_modify hn' hshift.continues).accountable hz
      rw [modifyAll_cons, outside_modify hn' hshift, hout z hz', hback]
      omega
    | false =>
      rw [hchain, reach_cons_of_not_passes hn hpass] at hf ⊢
      refine ⟨sound_modify h hn hshift.continues hshift.counted,
        continues_modify hn hshift.continues, fun z hz => ?_⟩
      have hz' := (continues_modify hn hshift.continues).accountable hz
      rw [modifyAll_cons, modifyAll_nil, outside_modify hn hshift]
      cases hback : n.entity.backing? with
      | none => simp
      | some y =>
        have hne : z ≠ y := by
          intro heq
          subst heq
          have hr := (h.linked x n z hn (backing?_eq_below? hback)).2
          exact not_accountable_of_not_passes hp hpass hback hr hz'
        rw [credit_of_ne hne, sub_zero]

end Store

/-! ## Adjusted worlds -/

/-- The counts of several entities have changed by one, and each of them once. -/
structure World.Adjusted (w w' : World) (f : Node → Node) (d : Int) (ys : List Id) : Prop where
  store : w'.store = w.store.modifyAll ys f
  isShutdown : w'.isShutdown = w.isShutdown
  inForce : w'.inForce = w.inForce
  changes : ∀ z, w'.changes z = w.changes z ++ if z ∈ ys then [d] else []
  drops : ∀ z, w'.drops z + w'.store.standing z = w.drops z + w.store.standing z
  failures : w.IsOpen → w'.failures = w.failures

namespace World

variable {w w₁ w₂ : World} {f : Node → Node} {d : Int} {ys : List Id}

theorem Adjusted.nil (w : World) (f : Node → Node) (d : Int) : w.Adjusted w f d [] :=
  ⟨rfl, rfl, rfl, fun z => by simp, fun _ => rfl, fun _ => rfl⟩

theorem Adjusted.get?_of_not_mem (h : w.Adjusted w₁ f d ys) {x : Id} (hx : x ∉ ys) :
    w₁.store.get? x = w.store.get? x := by
  rw [h.store, Store.get?_modifyAll_of_not_mem _ _ hx]

theorem Adjusted.isOpen (h : w.Adjusted w₁ f d ys) (ho : w.IsOpen) : w₁.IsOpen := by
  intro hd
  rw [h.inForce]
  exact ho (h.isShutdown ▸ hd)

theorem Adjusted.isTolerant (h : w.Adjusted w₁ f d ys) (ht : w.IsTolerant) : w₁.IsTolerant := by
  intro hd
  rw [h.inForce]
  exact ht (h.isShutdown ▸ hd)

theorem Adjusted.quiet (h : w.Adjusted w₁ f d ys) (hq : w₁.Quiet w₂)
    (hfail : w₁.IsOpen → w₂.failures = w₁.failures) : w.Adjusted w₂ f d ys :=
  ⟨hq.store.trans h.store, hq.isShutdown.trans h.isShutdown, hq.inForce.trans h.inForce,
    fun z => (hq.changes z).trans (h.changes z), fun z => by rw [hq.drops, hq.store, h.drops],
    fun ho => (hfail (h.isOpen ho)).trans (h.failures ho)⟩

/-- One more entity is changed. -/
theorem Adjusted.cons (h : w.Adjusted w₁ f d ys) {x : Id} {n : Node} (hx : x ∉ ys)
    (hn : w₁.store.get? x = some n) (hstore : w₂.store = w₁.store.modify x f)
    (hdown : w₂.isShutdown = w₁.isShutdown) (hforce : w₂.inForce = w₁.inForce)
    (hchanges : ∀ z, w₂.changes z = w₁.changes z ++ if z = x then [d] else [])
    (hdrops : ∀ z, w₂.drops z + (if z = x then (f n).standing else 0) =
      w₁.drops z + if z = x then n.standing else 0)
    (hfail : w₂.failures = w₁.failures) :
    w.Adjusted w₂ f d (x :: ys) := by
  refine ⟨by rw [hstore, h.store, Store.modifyAll_cons], hdown.trans h.isShutdown,
    hforce.trans h.inForce, fun z => ?_, fun z => ?_, fun ho => hfail.trans (h.failures ho)⟩
  · rw [hchanges, h.changes, List.append_assoc]
    congr 1
    by_cases hz : z = x
    · subst hz
      simp [hx]
    · simp [hz]
  · rw [← h.drops z, hstore]
    have := hdrops z
    unfold Store.standing
    rw [Store.get?_modify]
    by_cases hz : z = x
    · subst hz
      rw [if_pos rfl, if_pos rfl] at this
      rw [if_pos rfl, hn]
      exact this
    · rw [if_neg hz, if_neg hz] at this
      rw [if_neg (Ne.symm hz)]
      omega

theorem Adjusted.told (h : w.Adjusted w₁ f d ys) (hys : ys.Nodup)
    (hf : ∀ y ∈ ys, ∃ n, w.store.get? y = some n ∧
      (f n).entity.references = n.entity.references + d) (z : Id) :
    w₁.store.references z - (w₁.changes z).sum = w.store.references z - (w.changes z).sum := by
  have href := Store.references_modifyAll hys hf z
  rw [← h.store] at href
  rw [href, h.changes z, List.sum_append]
  split
  · simp only [List.sum_cons, List.sum_nil]
    omega
  · simp only [List.sum_nil]
    omega

/-- Changing all counts in reach of an entity moves references to that entity alone. -/
theorem Adjusted.moves {x : Id} {position : Nat} (hs : w.store.Sound)
    (hp : position = Layout.addRef ∨ position = Layout.release)
    (h : w.Adjusted w₁ f d (w.store.reach position (w.store.chain x)))
    (hf : w.store.AllShift (w.store.reach position (w.store.chain x)) f d) :
    w.Moves w₁ (credit (some x) d) := by
  have hnodup := Store.reach_nodup (Store.chain_nodup hs.earlier x) w.store position
  have key := Store.outside_modifyAll hs hp x hf
  rw [← h.store] at key
  refine ⟨key.1, key.2.1, key.2.2, fun z _ => h.told hnodup (fun y hy => ?_) z,
    h.drops⟩
  obtain ⟨n, hn, hshift⟩ := hf y hy
  exact ⟨n, hn, hshift.references⟩

end World

end ObjectBoundary
