import ObjectBoundary.Proofs.References.Passage
import ObjectBoundary.Proofs.Runs

/-!
# Taking and giving up references

What `retain`, `release` and `drop` do to a sound world, and when they are done.

* `ends_retain`, `ends_release`: all counts in reach change by one, which moves one reference.
* `runs_along`: what can be in the way of anything that walks down a chain.
* `runs_retain`, `runs_release`: only something missing from a chain is in their way.
* `does_retain`, `does_release`: where a chain is whole, nothing stops them.
-/

namespace ObjectBoundary

open Act

variable {w w' : World} {x : Id} {n : Node} {ys : List Id} {U : Failure → World → Prop}

/-! ## What they do -/

theorem Store.Sound.allShift_raised {st : Store} (hs : st.Sound) (hup : st.Upheld ys)
    (hr : st.CanRise ys) : st.AllShift ys Node.raised 1 := by
  intro y hy
  obtain ⟨n, hn, hlive, hshared⟩ := hup y hy
  exact ⟨n, hn, Node.shifts_raised (hs.counted y n hn) hlive hshared (hr y hy n hn)⟩

namespace World

theorem Retained.allShift (h : w.Retained w' ys) (hs : w.store.Sound) :
    w.store.AllShift ys Node.raised 1 := hs.allShift_raised h.upheld h.canRise

theorem Released.allShift (h : w.Released w' ys) (hs : w.store.Sound) :
    w.store.AllShift ys Node.lowered (-1) := by
  intro y hy
  obtain ⟨n, hn, hlive, hshared⟩ := h.upheld y hy
  exact ⟨n, hn, Node.shifts_lowered (hs.counted y n hn) hlive hshared⟩

/-- The entities that a reference to another one reaches when it is taken. -/
def above (w : World) (x : Id) : List Id := w.store.reach Layout.addRef (w.store.chain x)

/-- The entities that a reference to another one reaches when it is given up. -/
def below (w : World) (x : Id) : List Id := w.store.reach Layout.release (w.store.chain x)

theorem Retained.moves (hs : w.store.Sound) (h : w.Retained w' (w.above x)) :
    w.Moves w' (credit (some x) 1) :=
  h.adjusted.moves hs (Or.inl rfl) (h.allShift hs)

theorem Released.moves (hs : w.store.Sound) (h : w.Released w' (w.below x)) :
    w.Moves w' (credit (some x) (-1)) :=
  h.adjusted.moves hs (Or.inr rfl) (h.allShift hs)

end World

namespace Act

theorem ends_retain (earlier : ∀ x y, w.store.below? x = some y → y < x) (x : Id) :
    Ends (retain x) w (fun _ w' => w.Retained w' (w.above x)) U :=
  ends_get_bind (ends_retainAlong (Store.chain_nodup earlier x) w)

/-- Where giving a reference up unwinds, it was cut short. -/
theorem ends_release_cutShort (hs : w.store.Sound) (x : Id) :
    Ends (release x) w
      (fun a w' => w.Released w' (w.below x) ∧
        ∀ n, w.store.get? x = some n → a = n.entity.releaseAnswer)
      fun e w' => World.Disturbed e w' ∧ w.CutShort w' (w.store.chain x) := by
  refine ends_get_bind (ends_mono (ends_releaseAlong (Store.chain_nodup hs.earlier x) hs) ?_
    fun _ _ hu => hu)
  intro a w' hpost
  obtain ⟨h, ha⟩ := hpost
  exact ⟨h, ha x rfl⟩

theorem ends_release (hs : w.store.Sound) (x : Id) :
    Ends (release x) w
      (fun a w' => w.Released w' (w.below x) ∧
        ∀ n, w.store.get? x = some n → a = n.entity.releaseAnswer)
      World.Disturbed :=
  ends_mono (ends_release_cutShort hs x) (fun _ _ h => h) fun _ _ hu => hu.1

theorem ends_drop (hs : w.store.Sound) (x : Id) :
    Ends (drop x) w (fun _ w' => w.Released w' (w.below x)) World.Disturbed :=
  ends_bind (ends_release hs x) fun _ _ h => ends_pure h.1

end Act

/-! ## When they are done -/

namespace Store

variable {st : Store}

theorem Upheld.mono {xs ys : List Id} (h : st.Upheld xs) (hys : ∀ y ∈ ys, y ∈ xs) :
    st.Upheld ys := fun y hy => h y (hys y hy)

/-- More references leave nothing missing. -/
theorem Upheld.raised {xs : List Id} (h : st.Upheld xs) (ys : List Id) :
    (st.modifyAll ys Node.raised).Upheld xs := by
  induction ys with
  | nil => exact h
  | cons y ys ih =>
    intro z hz
    obtain ⟨n, hn, hlive, hshared⟩ := ih z hz
    rw [modifyAll_cons, get?_modify, hn]
    split
    · refine ⟨n.raised, rfl, hlive, ?_⟩
      unfold Entity.isShared
      rw [show n.raised.entity.role = n.entity.role from (Entity.continues_raised n.entity).role]
      exact hshared
    · exact ⟨n, rfl, hlive, hshared⟩

/-- What does not exist is missing from a chain. -/
theorem not_upheld_of_gone {xs : List Id} (hx : x ∈ xs)
    (hgone : ∀ n, st.get? x = some n → n.live = false) : ¬ st.Upheld xs := by
  intro hup
  obtain ⟨n, hn, hlive, -⟩ := hup x hx
  exact absurd (hlive.symm.trans (hgone n hn)) Bool.noConfusion

theorem not_upheld_of_not_isShared {xs : List Id} (hx : x ∈ xs) (hn : st.get? x = some n)
    (h : n.entity.isShared = false) : ¬ st.Upheld xs := by
  intro hup
  obtain ⟨m, hm, -, hshared⟩ := hup x hx
  cases hn.symm.trans hm
  exact absurd (hshared.symm.trans h) Bool.noConfusion

/-- An entity that exists. -/
def IsLive (st : Store) (x : Id) : Prop := ∃ n, st.get? x = some n ∧ n.live = true

/-- Below a shared entity there are shared entities alone, so a chain in which all exist is
whole. -/
theorem Linked.upheld_chain (hl : st.Linked) (hn : st.get? x = some n)
    (hshared : n.entity.isShared = true) (hlive : ∀ y ∈ st.chain x, st.IsLive y) :
    st.Upheld (st.chain x) := by
  induction x using Nat.strongRecOn generalizing n with
  | ind x ih =>
    obtain ⟨m, hm, hmlive⟩ := hlive x (mem_chain_self hl.earlier x)
    cases hn.symm.trans hm
    cases hy : n.entity.below? with
    | none =>
      rw [chain_eq_cons hl.earlier, below?_eq_some hn, hy]
      exact upheld_cons hn hmlive hshared (upheld_nil st)
    | some y =>
      rw [chain_of_below hl.earlier hn hy] at hlive ⊢
      obtain ⟨hlt, k, hk, hrole⟩ := hl x n y hn hy
      have hkshared : k.entity.isShared = true := by
        rw [Entity.isShared, hrole]
        obtain ⟨name, e, live⟩ := n
        cases e <;> first | rfl | cases hy | cases hshared
      refine upheld_cons hn hmlive hshared (ih y hlt hk hkshared fun z hz => ?_)
      exact hlive z (List.mem_cons_of_mem x hz)

/-- The structure of a proxy, whether it still exists or not. -/
theorem Linked.target (hl : st.Linked) {name : String} {p : SharedProxy} {live : Bool}
    (hn : st.get? x = some ⟨name, .sharedProxy p, live⟩) :
    ∃ m t, st.get? p.target = some m ∧ m.entity.struct? = some t := by
  obtain ⟨m, hm, hrole⟩ := (hl x _ _ hn rfl).2
  obtain ⟨t, ht⟩ := Entity.struct?_of_role hrole
  exact ⟨m, t, hm, ht⟩

end Store

namespace Act

/-- Something that walks down a chain is only kept from being done by what is missing from the
chain, if that holds at each entity whose rest of the chain is no obstacle. -/
theorem runs_along {α : Type} {walk : List Id → Act α} {act : Id → List Id → Entity → Act α}
    (hwalk : ∀ x ys, walk (x :: ys) = entity x >>= act x ys) (hl : w.store.Linked) (top : Id)
    (hact : ∀ x n (stuck : Prop), x ∈ w.store.chain top → w.store.get? x = some n →
      n.live = true → (n.entity.isShared = false → stuck) →
      (∀ y, n.entity.below? = some y → y < x ∧ Runs (walk (w.store.chain y)) w stuck ∧
        ∀ m, w.store.get? y = some m → m.live = false → stuck) →
      Runs (act x (n.entity.below?.elim [] w.store.chain) n.entity) w stuck) :
    Runs (walk (w.store.chain top)) w (¬ w.store.Upheld (w.store.chain top)) := by
  have hall : ∀ x ∈ w.store.chain top,
      Runs (walk (w.store.chain x)) w (¬ w.store.Upheld (w.store.chain x)) := by
    intro x
    induction x using Nat.strongRecOn with
    | ind x ih =>
      intro htop
      have hx := Store.mem_chain_self hl.earlier x
      have heq := (congrArg walk (Store.chain_eq_cons hl.earlier x)).trans (hwalk x _)
      rw [heq]
      refine runs_entity_bind (Store.not_upheld_of_gone hx) fun n hn hlive => ?_
      rw [Store.below?_eq_some hn]
      refine hact x n _ htop hn hlive (Store.not_upheld_of_not_isShared hx hn) fun y hy => ?_
      have hbelow : w.store.below? x = some y := (Store.below?_eq_some hn).trans hy
      have hlt := hl.earlier x y hbelow
      have hmem := Store.mem_chain_of_below hl.earlier hbelow
      have hy := hmem y (Store.mem_chain_self hl.earlier y)
      refine ⟨hlt, ?_, fun m hm hdead => ?_⟩
      · exact runs_mono (ih y hlt (Store.mem_chain_trans hl.earlier htop hy)) fun hnot hup =>
          hnot (hup.mono hmem)
      · exact Store.not_upheld_of_gone hy fun k hk => by cases hm.symm.trans hk; exact hdead
  exact hall top (Store.mem_chain_self hl.earlier top)

/-- Where all counts of a chain can rise, only what is missing from it keeps a reference from
being taken. -/
theorem runs_retainAlong (hl : w.store.Linked) (x : Id) (hr : w.store.CanRise (w.store.chain x)) :
    Runs (retainAlong (w.store.chain x)) w (¬ w.store.Upheld (w.store.chain x)) := by
  refine runs_along retainAlong.eq_2 hl x fun x n stuck hx hn hlive hkind hbelow => ?_
  have hraise {w₁ : World} {ys : List Id} {c : Count} (h₁ : w.Retained w₁ ys) (hxys : x ∉ ys)
      (hc : n.entity.sharedCount? = some c) : Runs (raise x) w₁ stuck := by
    have hn₁ := (h₁.adjusted.get?_of_not_mem hxys).trans hn
    exact (does_raise hn₁ hlive hc (Entity.not_full_of_canRise (hr x hx n hn) hc)).runs
  obtain ⟨name, e, live⟩ := n
  cases e with
  | sharedObject o => exact hraise (.nil w) List.not_mem_nil rfl
  | sharedWrapper v =>
    obtain ⟨hlt, hruns, -⟩ := hbelow v.object rfl
    have hends := ends_retainAlong (U := fun _ _ => True)
      (Store.chain_nodup hl.earlier v.object) w
    exact runs_bind hruns hends fun _ w₁ h₁ =>
      hraise h₁ (Store.not_mem_reach_chain hl.earlier hlt _) rfl
  | sharedProxy p =>
    obtain ⟨hlt, hruns, hgone⟩ := hbelow p.target rfl
    have hends := ends_retainAlong (U := fun _ _ => True)
      (Store.chain_nodup hl.earlier p.target) w
    obtain ⟨m, t, hm, ht⟩ := hl.target hn
    have hreach := Store.not_mem_reach_chain hl.earlier hlt Layout.addRef
    refine runs_bind (runs_through hm ht (hgone m hm) hruns)
      (ends_pass (U := fun _ _ => True) hn hreach hends (.nil w)) ?_
    intro _ w₁ hpost
    obtain ⟨ys, -, hxys, h₁⟩ := hpost
    exact hraise h₁ hxys rfl
  | sharedFar f =>
    apply Does.runs
    exact does_modify_bind (does_modify _ _)
  | _ => exact runs_refuse _ (hkind rfl)

/-- Unless the check of the start of shutdown can unwind, only what is missing from a chain keeps
a reference from being given up. -/
theorem runs_releaseAlong (hs : w.store.Sound) (ht : w.IsTolerant) (x : Id) :
    Runs (releaseAlong (w.store.chain x)) w (¬ w.store.Upheld (w.store.chain x)) := by
  have hl : w.store.Linked := hs.linked
  refine runs_along releaseAlong.eq_2 hl x fun x n stuck hx hn hlive hkind hbelow => ?_
  have hcount := hs.counted x n hn
  -- Only the check of the start of shutdown could stop the clean-up of what is destroyed.
  have hlower {w₁ : World} {ys : List Id} {c : Count} (h₁ : w.Released w₁ ys) (hxys : x ∉ ys)
      (hc : n.entity.sharedCount? = some c) (hpos : 0 < c.toNat) :
      Runs
        (do
          let last ← lower x
          if last then
            retire x
            requireRunning
          pure (truth last))
        w₁ stuck := by
    have hn₁ := (h₁.adjusted.get?_of_not_mem hxys).trans hn
    refine (does_lower_bind hn₁ hlive hc hpos fun w₂ hd hf => does_requireRunning ?_).runs
    intro hd'
    rw [hf]
    exact h₁.adjusted.isTolerant ht (hd ▸ hd')
  obtain ⟨name, e, live⟩ := n
  cases e with
  | sharedObject o =>
    exact (does_lower_bind hn hlive rfl (hcount.live_iff.mp hlive)
      fun w' _ _ => does_modify _ _).runs
  | sharedWrapper v =>
    obtain ⟨hlt, hruns, -⟩ := hbelow v.object rfl
    have hends := ends_releaseAlong (Store.chain_nodup hs.earlier v.object) hs
    apply runs_bind (runs_discard hruns) (ends_discard hends)
    intro _ w₁ h₁
    obtain ⟨-, h₁, -⟩ := h₁
    exact hlower h₁ (Store.not_mem_reach_chain hs.earlier hlt _) rfl (hcount.live_iff.mp hlive)
  | sharedProxy p =>
    obtain ⟨hlt, hruns, hgone⟩ := hbelow p.target rfl
    have hends := ends_mono (ends_releaseAlong (Store.chain_nodup hs.earlier p.target) hs)
      (fun _ _ h₁ => h₁.1) fun _ _ hu => hu
    obtain ⟨m, t, hm, ht⟩ := hl.target hn
    have hreach := Store.not_mem_reach_chain hs.earlier hlt Layout.release
    refine runs_bind (runs_discard (runs_through hm ht (hgone m hm) hruns))
      (ends_discard (ends_pass (U := fun _ _ => True) hn hreach hends (.nil w))) ?_
    intro _ w₁ hpost
    obtain ⟨-, ys, -, hxys, h₁⟩ := hpost
    exact hlower h₁ hxys rfl (hcount.live_iff.mp hlive)
  | sharedFar f =>
    apply Does.runs
    exact does_modify_bind (does_modify_bind (does_pure _ _))
  | _ => exact runs_refuse _ (hkind rfl)

theorem runs_retain (hl : w.store.Linked) (hr : w.store.CanRise (w.store.chain x)) :
    Runs (retain x) w (¬ w.store.Upheld (w.store.chain x)) :=
  runs_retainAlong hl x hr

theorem runs_release (hs : w.store.Sound) (ht : w.IsTolerant) (x : Id) :
    Runs (release x) w (¬ w.store.Upheld (w.store.chain x)) :=
  runs_releaseAlong hs ht x

theorem does_retain (hs : w.store.Sound) (hup : w.store.Upheld (w.store.chain x))
    (hr : w.store.CanRise (w.store.chain x)) : Does (retain x) w :=
  (runs_retain hs.linked hr).does fun hnot => hnot hup

theorem does_release (hs : w.store.Sound) (ht : w.IsTolerant)
    (hup : w.store.Upheld (w.store.chain x)) : Does (release x) w :=
  (runs_release hs ht x).does fun hnot => hnot hup

end Act

end ObjectBoundary
