import ObjectBoundary.Act.Disposal
import ObjectBoundary.Proofs.Makes
import ObjectBoundary.Proofs.Ownership.Custody

/-!
# What disposal destroys

Disposal goes down a chain as far as ownership does: from a wrapper to the object that it owns,
and from a proxy to its structure, if that can be deleted. All that it meets ceases to exist, and
nothing else changes.

* `Store.doomed`: the part of a chain that is destroyed with its first entity.
* `World.Disposed`: several entities were destroyed, and nothing else has happened to the store.
* `Act.ends_dispose`: disposal destroys what is doomed.
* `Store.custody_disposed`: of loose objects, it takes away the first entity alone.
-/

namespace ObjectBoundary

/-- An entity that was destroyed. A structure of the far side only counts that it was deleted. -/
def Node.disposed (n : Node) : Node :=
  match n.entity with
  | .ownedFar f => { n with entity := .ownedFar { f with deletions := f.deletions + 1 } }
  | _ => { n with live := false }

namespace Store

variable {st : Store} {x y : Id} {n : Node}

/-- Whether an entity takes the one below it along when it is destroyed. -/
def leadsOn (st : Store) : Entity → Bool
  | .ownedWrapper v => v.owns && v.object.isSome
  | .ownedProxy p => p.target.any fun s => st.isSet s Layout.del
  | _ => false

/-- The part of a chain that is destroyed with its first entity. -/
def doomed (st : Store) : List Id → List Id
  | [] => []
  | x :: below =>
    x :: if (st.get? x).any fun n => st.leadsOn n.entity then doomed st below else []

theorem doomed_cons (hn : st.get? x = some n) (below : List Id) :
    st.doomed (x :: below) = x :: if st.leadsOn n.entity then st.doomed below else [] := by
  simp [doomed, hn]

/-- An entity that takes none along is destroyed alone. -/
theorem doomed_of_not_leadsOn (hn : st.get? x = some n) (h : st.leadsOn n.entity = false) :
    st.doomed (st.chain x) = [x] := by
  obtain ⟨below, hchain⟩ : ∃ below, st.chain x = x :: below := ⟨_, rfl⟩
  rw [hchain, doomed_cons hn, h, if_neg Bool.false_ne_true]

/-! ## Disposal changes nothing that it depends on -/

@[simp] theorem below?_disposed (n : Node) : n.disposed.entity.below? = n.entity.below? := by
  obtain ⟨name, e, live⟩ := n
  cases e <;> rfl

@[simp] theorem struct?_disposed (n : Node) : n.disposed.entity.struct? = n.entity.struct? := by
  obtain ⟨name, e, live⟩ := n
  cases e <;> rfl

/-- A change that keeps the structure of an entity. -/
theorem isSet_modify {f : Node → Node}
    (hf : ∀ n, st.get? x = some n → (f n).entity.struct? = n.entity.struct?) (s : Id)
    (position : Nat) : (st.modify x f).isSet s position = st.isSet s position := by
  unfold isSet
  rw [get?_modify]
  split
  · rename_i hxs
    subst hxs
    cases hn : st.get? x with
    | none => rfl
    | some n => simp [hf n hn]
  · rfl

theorem isSet_disposed (st : Store) (x s : Id) (position : Nat) :
    (st.modify x Node.disposed).isSet s position = st.isSet s position :=
  isSet_modify (fun n _ => struct?_disposed n) s position

theorem leadsOn_disposed (st : Store) (x : Id) (n : Node) :
    (st.modify x Node.disposed).leadsOn n.disposed.entity = st.leadsOn n.entity ∧
      (st.modify x Node.disposed).leadsOn n.entity = st.leadsOn n.entity := by
  obtain ⟨name, e, live⟩ := n
  cases e <;> simp [leadsOn, Node.disposed, isSet_disposed]

theorem doomed_disposed (st : Store) (x : Id) (ys : List Id) :
    (st.modify x Node.disposed).doomed ys = st.doomed ys := by
  induction ys with
  | nil => rfl
  | cons y ys ih =>
    have hsame : ((st.modify x Node.disposed).get? y).any
        (fun n => (st.modify x Node.disposed).leadsOn n.entity) =
          (st.get? y).any fun n => st.leadsOn n.entity := by
      rw [get?_modify]
      cases st.get? y with
      | none => split <;> rfl
      | some n =>
        split
        · exact (leadsOn_disposed st x n).1
        · exact (leadsOn_disposed st x n).2
    rw [doomed, doomed, hsame, ih]

theorem modify_comm (st : Store) (x y : Id) (f : Node → Node) :
    (st.modify x f).modify y f = (st.modify y f).modify x f := by
  apply ext_get?
  intro z
  simp only [get?_modify]
  split <;> split <;> rfl

theorem modifyAll_modify (st : Store) (x : Id) (ys : List Id) (f : Node → Node) :
    (st.modify x f).modifyAll ys f = st.modifyAll (x :: ys) f := by
  induction ys with
  | nil => rfl
  | cons y ys ih =>
    rw [modifyAll_cons, ih, modifyAll_cons, modifyAll_cons, modifyAll_cons, modify_comm]

end Store

/-! ## The act -/

/-- Entities that existed were destroyed, and nothing else has happened to the store. -/
structure World.Disposed (w w' : World) (ys : List Id) : Prop
    extends w.Becomes w' (w.store.modifyAll ys Node.disposed) where
  live : ∀ y ∈ ys, w.store.IsLive y

namespace World

variable {w w₁ w₂ : World} {x : Id} {n : Node} {ys : List Id}

/-- One entity was destroyed before the others. -/
theorem Disposed.cons (hn : w.store.get? x = some n) (hlive : n.live = true)
    (h₁ : w.Becomes w₁ (w.store.modify x Node.disposed)) (h : w₁.Disposed w₂ ys) :
    w.Disposed w₂ (x :: ys) := by
  refine ⟨⟨?_, (h₁.trans h.toBecomes).isShutdown, (h₁.trans h.toBecomes).inForce⟩, ?_⟩
  · rw [h.store, h₁.store, Store.modifyAll_modify]
  · intro y hy
    rcases List.mem_cons.mp hy with rfl | hy
    · exact ⟨n, hn, hlive⟩
    · obtain ⟨m, hm, hmlive⟩ := h.live y hy
      rw [h₁.store, Store.get?_modify] at hm
      split at hm
      · rename_i hxy
        exact ⟨n, hxy ▸ hn, hlive⟩
      · exact ⟨m, hm, hmlive⟩

theorem Disposed.refl (w : World) : w.Disposed w [] := ⟨⟨rfl, rfl, rfl⟩, nofun⟩

end World

namespace Act

variable {w : World} {x : Id}

theorem becomes_disposed {n : Node} {f : Node → Node} (hn : w.store.get? x = some n)
    (hf : f n = n.disposed) (log : List Event) :
    w.Becomes { w with store := w.store.modify x f, log := log }
      (w.store.modify x Node.disposed) := by
  refine ⟨Store.modify_congr ?_, rfl, rfl⟩
  intro m hm
  cases hn.symm.trans hm
  exact hf

theorem disposed_single {n : Node} {f : Node → Node} (hn : w.store.get? x = some n)
    (hlive : n.live = true) (hf : f n = n.disposed) (log : List Event) :
    w.Disposed { w with store := w.store.modify x f, log := log } [x] :=
  let w₁ : World := { w with store := w.store.modify x f, log := log }
  (World.Disposed.refl w₁).cons hn hlive (becomes_disposed hn hf log)

/-- Disposal destroys what is doomed along a chain. -/
theorem ends_disposeAlong (xs : List Id) (w : World) :
    Ends (disposeAlong xs) w (fun _ w' => w.Disposed w' (w.store.doomed xs)) World.Disturbed := by
  induction xs generalizing w with
  | nil => exact ends_refuse
  | cons x below ih =>
    apply ends_entity_bind
    intro n hn hlive
    rw [Store.doomed_cons hn]
    have hrunning {f : Act Unit} {ys : List Id} (hd : { n with live := false } = n.disposed)
        (hf : ∀ w₁ : World, w₁.store = w.store.modify x Node.disposed →
          Ends f w₁ (fun _ w' => w₁.Disposed w' ys) World.Disturbed) :
        Ends (retire x >>= fun _ => requireRunning >>= fun _ => f) w
          (fun _ w' => w.Disposed w' (x :: ys)) World.Disturbed := by
      apply ends_modify_bind
      have h₁ := becomes_disposed (f := fun n => { n with live := false }) hn hd w.log
      refine ends_bind (ends_mono ends_requireRunning (fun _ _ h => h) fun _ _ h => h.1) ?_
      intro _ w₂ hpost
      have h₂ := hpost.1.becomes
      rw [h₁.store] at h₂
      refine ends_mono (hf w₂ h₂.store) (fun _ w₃ h₃ => ?_) fun _ _ h => h
      exact h₃.cons hn hlive (h₁.trans h₂)
    obtain ⟨name, e, live⟩ := n
    cases e with
    | ownedObject o =>
      apply ends_modify_bind
      apply ends_modify
      apply disposed_single hn hlive
      rfl
    | ownedWrapper v =>
      apply hrunning rfl
      intro w₁ h₁
      show Ends (if (v.owns && v.object.isSome) = true then disposeAlong below else pure ()) w₁ _ _
      have hlead : w.store.leadsOn (.ownedWrapper v) = (v.owns && v.object.isSome) := rfl
      rw [hlead]
      split
      · have := ih w₁
        rwa [h₁, Store.doomed_disposed] at this
      · exact ends_pure (World.Disposed.refl w₁)
    | ownedProxy p =>
      apply hrunning rfl
      intro w₁ h₁
      have hlead : w.store.leadsOn (.ownedProxy p) =
          p.target.any fun s => w₁.store.isSet s Layout.del := by
        rw [h₁]
        cases ht : p.target with
        | none => simp [Store.leadsOn, ht]
        | some s => simp [Store.leadsOn, ht, Store.isSet_disposed]
      rw [hlead]
      cases ht : p.target with
      | none => exact ends_pure (World.Disposed.refl w₁)
      | some s =>
        rw [Option.any_some]
        refine ends_through (V := World.Disturbed) (fun m t hm _ hmt hset => ?_)
          fun m t hm _ hmt hset => ?_
        · rw [Store.isSet_eq hm hmt, hset, if_pos rfl]
          have := ih w₁
          rwa [h₁, Store.doomed_disposed] at this
        · rw [Store.isSet_eq hm hmt, hset]
          exact World.Disposed.refl w₁
    | ownedFar f =>
      apply ends_modify_bind
      apply ends_modify
      apply disposed_single hn hlive
      rfl
    | _ => exact ends_refuse

theorem ends_dispose (x : Id) (w : World) :
    Ends (dispose x) w (fun _ w' => w.Disposed w' (w.store.doomed (w.store.chain x)))
      World.Disturbed :=
  ends_get_bind (ends_disposeAlong (w.store.chain x) w)

end Act

/-! ## Custody -/

namespace Store

variable {st : Store} {x : Id} {n : Node}

theorem doomed_sublist (st : Store) (xs : List Id) : (st.doomed xs).Sublist xs := by
  induction xs with
  | nil => exact .refl _
  | cons x below ih =>
    rw [doomed]
    split
    · exact ih.cons_cons x
    · exact (List.nil_sublist below).cons_cons x

theorem doomed_subset (st : Store) (xs : List Id) : ∀ y ∈ st.doomed xs, y ∈ xs :=
  (st.doomed_sublist xs).subset

theorem doomed_chain_nodup (hl : st.Linked) (x : Id) : (st.doomed (st.chain x)).Nodup :=
  (chain_nodup hl.earlier x).sublist (st.doomed_sublist _)

/-- What is doomed with an entity is the entity itself, and what something doomed takes along. -/
theorem mem_doomed_chain (hl : st.Linked) {y : Id} :
    y ∈ st.doomed (st.chain x) ↔ y = x ∨ ∃ z n, z ∈ st.doomed (st.chain x) ∧ st.get? z = some n ∧
      st.leadsOn n.entity = true ∧ n.entity.below? = some y := by
  induction x using Nat.strongRecOn with
  | ind x ih =>
    rw [chain_eq_cons hl.earlier x]
    cases hn : st.get? x with
    | none =>
      have hnone : st.below? x = none := by
        rw [below?, hn]
        rfl
      have hdoomed : st.doomed [x] = [x] := by simp [doomed, hn]
      simp only [hnone, Option.elim_none, hdoomed, List.mem_singleton]
      constructor
      · exact Or.inl
      · rintro (h | ⟨z, n, rfl, hz, -⟩)
        · exact h
        · cases hn.symm.trans hz
    | some n =>
      rw [doomed_cons hn, below?_eq_some hn]
      cases hlead : st.leadsOn n.entity with
      | false =>
        simp only [Bool.false_eq_true, if_false, List.mem_singleton]
        constructor
        · exact Or.inl
        · rintro (h | ⟨z, m, rfl, hz, hlead', -⟩)
          · exact h
          · cases hn.symm.trans hz
            cases hlead.symm.trans hlead'
      | true =>
        cases hbelow : n.entity.below? with
        | none =>
          simp only [if_true, Option.elim_none, doomed, List.mem_singleton]
          constructor
          · exact Or.inl
          · rintro (h | ⟨z, m, rfl, hz, -, hbelow'⟩)
            · exact h
            · cases hn.symm.trans hz
              cases hbelow.symm.trans hbelow'
        | some u =>
          have hrest := ih u (hl x n u hn hbelow).1
          simp only [if_true, Option.elim_some, List.mem_cons]
          constructor
          · rintro (h | h)
            · exact Or.inl h
            · rcases hrest.mp h with rfl | ⟨z, m, hz, hm, hlead', hbelow'⟩
              · exact Or.inr ⟨x, n, Or.inl rfl, hn, hlead, hbelow⟩
              · exact Or.inr ⟨z, m, Or.inr hz, hm, hlead', hbelow'⟩
          · rintro (h | ⟨z, m, rfl | hz, hm, hlead', hbelow'⟩)
            · exact Or.inl h
            · cases hn.symm.trans hm
              cases hbelow.symm.trans hbelow'
              exact Or.inr (hrest.mpr (Or.inl rfl))
            · exact Or.inr (hrest.mpr (Or.inr ⟨z, m, hz, hm, hlead', hbelow'⟩))

theorem share_disposed (n : Node) (x z : Id) : n.disposed.share x z = 0 := by
  obtain ⟨name, e, live⟩ := n
  cases e with
  | ownedFar f => exact Node.share_of_not_isOwned rfl x z
  | _ => exact Node.share_of_not_live rfl x z

theorem isGuarded_disposed (n : Node) : n.disposed.entity.isGuarded = n.entity.isGuarded := by
  obtain ⟨name, e, live⟩ := n
  cases e <;> rfl

theorem live_disposed (n : Node) : n.disposed.live = false ∨ n.entity.isOwned = false := by
  obtain ⟨name, e, live⟩ := n
  cases e with
  | ownedFar f => exact Or.inr rfl
  | _ => exact Or.inl rfl

/-- An entity that takes none along owns no object. -/
theorem keeps_of_not_leadsOn (h : st.leadsOn n.entity = false) (z : Id) : n.keeps z = 0 := by
  obtain ⟨name, e, live⟩ := n
  cases e with
  | ownedWrapper v =>
    refine if_neg fun hkeeps => ?_
    change (v.owns && v.object.isSome) = false at h
    change live = true ∧ (if v.owns = true then v.object else none) = some z at hkeeps
    split at hkeeps
    · rename_i howns
      rw [howns, hkeeps.2] at h
      cases h
    · cases hkeeps.2
  | _ => exact if_neg fun hkeeps => nomatch hkeeps.2

/-- An entity that takes another one along owns it, if it is an object. -/
theorem keeps_of_leadsOn (hl : st.Linked) (hn : st.get? x = some n) (hlive : n.live = true)
    (h : st.leadsOn n.entity = true) :
    ∃ y, n.entity.below? = some y ∧
      (st.IsLive y → ∀ z, (n.keeps z : Int) = credit (some y) (st.presence y) z) := by
  obtain ⟨name, e, live⟩ := n
  change live = true at hlive
  subst hlive
  cases e with
  | ownedWrapper v =>
    obtain ⟨howns, hobject⟩ := Bool.and_eq_true_iff.mp h
    obtain ⟨y, hy⟩ := Option.isSome_iff_exists.mp hobject
    refine ⟨y, hy, fun hlive z => ?_⟩
    obtain ⟨m, hm, hmlive⟩ := hlive
    obtain ⟨-, m', hm', hrole⟩ := hl x _ y hn hy
    cases hm.symm.trans hm'
    have hpresence : st.presence y = 1 := (presence_eq hm).trans (if_pos ⟨hmlive, hrole⟩)
    rw [hpresence]
    simp [Node.keeps, Entity.keeps?, howns, hy, credit]
  | ownedProxy p =>
    obtain ⟨y, hy, -⟩ := (Option.any_eq_true _ _).mp h
    refine ⟨y, hy, fun _ z => ?_⟩
    obtain ⟨-, m, hm, hrole⟩ := hl x _ y hn hy
    have hpresence : st.presence y = 0 := by
      refine (presence_eq hm).trans (if_neg fun hobject => ?_)
      rw [hobject.2] at hrole
      cases hrole
    rw [hpresence]
    simp [Node.keeps, Entity.keeps?, credit]
  | _ => cases h

/-- What disposal destroys below its first entity was owned on the way, so it was not loose. -/
theorem custody_disposed (hl : st.Linked) (x : Id)
    (hlive : ∀ y ∈ st.doomed (st.chain x), st.IsLive y) :
    st.Custody (st.modifyAll (st.doomed (st.chain x)) Node.disposed)
      (fun z => -credit (some x) (st.presence x) z) (st.doomed (st.chain x)) := by
  induction x using Nat.strongRecOn with
  | ind x ih =>
    obtain ⟨n, hn, hnlive⟩ := hlive x List.mem_cons_self
    have hguarded := (isGuarded_disposed n).symm
    have hchain := chain_eq_cons hl.earlier x
    cases hlead : st.leadsOn n.entity with
    | false =>
      rw [doomed_of_not_leadsOn hn hlead]
      refine ((Custody.refl st).modify hn hn hnlive (live_disposed n)
        fun h => hguarded ▸ h).of_eq fun z => ?_
      rw [share_disposed, Node.share, keeps_of_not_leadsOn hlead, presence_eq hn]
      simp
    | true =>
      obtain ⟨y, hy, hkeeps⟩ := keeps_of_leadsOn hl hn hnlive hlead
      have hlt := (hl x n y hn hy).1
      have hdoomed : st.doomed (st.chain x) = x :: st.doomed (st.chain y) := by
        rw [hchain, doomed_cons hn, hlead, below?_eq_some hn, hy]
        rfl
      rw [hdoomed] at hlive ⊢
      have hx : x ∉ st.doomed (st.chain y) := fun hmem =>
        absurd (chain_le hl.earlier y x (doomed_subset _ _ x hmem)) (Nat.not_le_of_lt hlt)
      have hbelow := ih y hlt fun z hz => hlive z (List.mem_cons_of_mem x hz)
      have hylive := hlive y (List.mem_cons_of_mem x List.mem_cons_self)
      refine (hbelow.modify hn ((get?_modifyAll_of_not_mem _ _ hx).trans hn) hnlive
        (live_disposed n) fun h => hguarded ▸ h).of_eq fun z => ?_
      rw [share_disposed, Node.share, hkeeps hylive, presence_eq hn]
      omega

end Store

end ObjectBoundary
