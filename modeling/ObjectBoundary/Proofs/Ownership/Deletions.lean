import Mathlib.Data.Finset.Card
import Mathlib.Data.Finset.Range
import ObjectBoundary.Proofs.Ownership.Owned

/-!
# Deletions of structures of the far side

A structure of the far side that has a single owner counts how often it was deleted. It is deleted
when it is struck itself or goes with a proxy that still held it, provided that it can be deleted.
What no longer exists keeps the state that it had in the end, so it can be told of every proxy what
it held when it ceased to exist.

* `Store.deletions`: how often a structure was deleted.
* `Store.lastHeld?`: the structure that a proxy held to its end.
* `World.Idle`: nothing was deleted, and no proxy has ceased to exist with what it held.
* `World.Strikes`: an entity was destroyed with all that it owns, or nothing of the kind happened.
* `World.Strikes.deletions`: who deletes is the one that strikes, or a proxy that goes.
* `strikes_surrender`, `strikes_call` and their like: what the acts of the boundary strike.
-/

namespace ObjectBoundary

open Act

/-! ## What tells of deletions -/

namespace Node

/-- How often a structure of the far side was deleted. -/
def deletions (n : Node) : Nat :=
  match n.entity with
  | .ownedFar f => f.deletions
  | _ => 0

/-- The structure that a proxy still held when it ceased to exist. -/
def lastHeld? (n : Node) : Option Id :=
  if n.live then none
  else match n.entity with
    | .ownedProxy p => p.target
    | _ => none

theorem lastHeld?_of_live {n : Node} (h : n.live = true) : n.lastHeld? = none := if_pos h

end Node

namespace Store

def deletions (st : Store) (f : Id) : Nat := (st.get? f).elim 0 Node.deletions

def lastHeld? (st : Store) (p : Id) : Option Id := (st.get? p).elim none Node.lastHeld?

/-- A structure of the far side that has a single owner. -/
def IsOwnedFar (st : Store) (f : Id) : Prop := ∃ n a, st.get? f = some n ∧ n.entity = .ownedFar a

/-- A proxy from which the structure was taken. -/
def IsHollow (st : Store) (p : Id) : Prop :=
  ∃ n q, st.get? p = some n ∧ n.entity = .ownedProxy q ∧ q.target = none

/-- The proxies that cease to exist, from one store to another, with a structure that they still
hold. -/
def perished (st st' : Store) (f : Id) : Finset Id :=
  (Finset.range st.size).filter fun p =>
    (st.get? p).any Node.live = true ∧ st'.lastHeld? p = some f

variable {st : Store} {x f : Id} {n : Node}

theorem deletions_eq (hn : st.get? x = some n) : st.deletions x = n.deletions := by
  rw [deletions, hn]
  rfl

theorem lastHeld?_eq (hn : st.get? x = some n) : st.lastHeld? x = n.lastHeld? := by
  rw [lastHeld?, hn]
  rfl

theorem IsOwnedFar.hasRole (h : st.IsOwnedFar f) : st.HasRole f .ownedStructure := by
  obtain ⟨n, a, hn, he⟩ := h
  exact ⟨n, hn, by rw [he]; rfl⟩

theorem IsOwnedFar.mono {st' : Store} (h : st.IsOwnedFar f) (hc : st.Continues st') :
    st'.IsOwnedFar f := by
  obtain ⟨n, a, hn, he⟩ := h
  obtain ⟨⟨name, e, live⟩, hn', hcont⟩ := hc f n hn
  have hentity := hcont.entity
  rw [he] at hentity
  cases e with
  | ownedFar a' => exact ⟨_, a', hn', rfl⟩
  | _ => exact hentity.elim

/-- A structure that was taken out is never put back. -/
theorem IsHollow.mono {st' : Store} (h : st.IsHollow x) (hc : st.Continues st') :
    st'.IsHollow x := by
  obtain ⟨n, q, hn, he, hnone⟩ := h
  obtain ⟨⟨name, e, live⟩, hn', hcont⟩ := hc x n hn
  have hentity := hcont.entity
  rw [he] at hentity
  cases e with
  | ownedProxy q' =>
    obtain ⟨-, hsame | hnone'⟩ := hentity
    · exact ⟨_, q', hn', rfl, hsame.trans hnone⟩
    · exact ⟨_, q', hn', rfl, hnone'⟩
  | _ => exact hentity.elim

theorem IsHollow.lastHeld? (h : st.IsHollow x) : st.lastHeld? x = none := by
  obtain ⟨⟨name, e, live⟩, q, hn, rfl, hnone⟩ := h
  rw [lastHeld?_eq hn]
  cases live
  · exact hnone
  · rfl

/-- A hollow proxy perishes with nothing. -/
theorem IsHollow.notMem_perished {st' : Store} (h : st'.IsHollow x) : x ∉ st.perished st' f := by
  intro hx
  cases h.lastHeld?.symm.trans (Finset.mem_filter.mp hx).2.2

end Store

/-! ## Idle changes -/

namespace World

/-- Nothing was deleted, and no proxy has ceased to exist with what it held. -/
structure Idle (w w' : World) : Prop where
  deletions : ∀ f, w'.store.deletions f = w.store.deletions f
  lastHeld? : ∀ p, w'.store.lastHeld? p = w.store.lastHeld? p

variable {w w' : World} {x : Id} {n : Node} {g : Node → Node} {f : Id}

instance : IsPreorder World Idle where
  refl _ := ⟨fun _ => rfl, fun _ => rfl⟩
  trans _ _ _ h h' := ⟨fun f => (h'.deletions f).trans (h.deletions f),
    fun p => (h'.lastHeld? p).trans (h.lastHeld? p)⟩

theorem idle_of_store (h : w'.store = w.store) : w.Idle w' :=
  ⟨fun _ => by rw [h], fun _ => by rw [h]⟩

theorem Quiet.idle (h : w.Quiet w') : w.Idle w' := idle_of_store h.store

/-- What bypasses owned objects and owned structures deletes nothing. -/
theorem Bypasses.idle (hobject : w.Bypasses .ownedObject w')
    (hstruct : w.Bypasses .ownedStructure w') : w.Idle w' := by
  have hdeletions (st : Store) (f : Id) :
      st.deletions f = (st.having .ownedStructure f).elim 0 Node.deletions := by
    cases hn : st.get? f with
    | none => rw [Store.deletions, Store.having, hn]; rfl
    | some n =>
      rw [Store.deletions_eq hn]
      by_cases hr : n.entity.role = .ownedStructure
      · rw [Store.having_eq_some.mpr ⟨hn, hr⟩]
        rfl
      · rw [(Store.having_eq_none hn).mpr hr]
        obtain ⟨name, e, live⟩ := n
        cases e <;> first | rfl | exact absurd rfl hr
  have hheld (st : Store) (p : Id) :
      st.lastHeld? p = (st.having .ownedObject p).elim none Node.lastHeld? := by
    cases hn : st.get? p with
    | none => rw [Store.lastHeld?, Store.having, hn]; rfl
    | some n =>
      rw [Store.lastHeld?_eq hn]
      by_cases hr : n.entity.role = .ownedObject
      · rw [Store.having_eq_some.mpr ⟨hn, hr⟩]
        rfl
      · rw [(Store.having_eq_none hn).mpr hr]
        obtain ⟨name, e, live⟩ := n
        cases live <;> cases e <;> first | rfl | exact absurd rfl hr
  exact ⟨fun f => by rw [hdeletions, hdeletions, hstruct.having],
    fun p => by rw [hheld, hheld, hobject.having]⟩

theorem idle_modify (hn : w.store.get? x = some n) (hd : (g n).deletions = n.deletions)
    (hh : (g n).lastHeld? = n.lastHeld?) : w.Idle { w with store := w.store.modify x g } := by
  have hplace {α : Type} (a : α) (view : Node → α) (hview : view (g n) = view n) (y : Id) :
      ((w.store.modify x g).get? y).elim a view = (w.store.get? y).elim a view := by
    rw [Store.get?_modify]
    split
    · rename_i hxy
      rw [← hxy, hn]
      exact hview
    · rfl
  exact ⟨hplace 0 Node.deletions hd, hplace none Node.lastHeld? hh⟩

theorem idle_push (hd : n.deletions = 0) (hh : n.lastHeld? = none) :
    w.Idle { w with store := w.store.push n } := by
  have hplace {α : Type} (a : α) (view : Node → α) (hview : view n = a) (y : Id) :
      ((w.store.push n).get? y).elim a view = (w.store.get? y).elim a view := by
    rw [Store.get?_push]
    split
    · rename_i hy
      rw [hy, Store.get?_size]
      exact hview
    · rfl
  exact ⟨hplace 0 Node.deletions hd, hplace none Node.lastHeld? hh⟩

end World

/-! ## What is struck -/

namespace Store

variable {st : Store} {x f p : Id}

/-- A structure of the far side that is destroyed with something above it goes with a proxy that
holds it. -/
theorem exists_proxy_of_mem_doomed (hl : st.Linked) (hf : st.IsOwnedFar f)
    (h : f ∈ st.doomed (st.chain x)) (hne : x ≠ f) :
    st.isSet f Layout.del = true ∧ ∃ z ∈ st.doomed (st.chain x), ∃ n q, st.get? z = some n ∧
      n.entity = .ownedProxy q ∧ q.target = some f := by
  obtain ⟨z, ⟨name, e, live⟩, hz, hn, hlead, hbelow⟩ :=
    ((mem_doomed_chain hl).mp h).resolve_left (Ne.symm hne)
  cases e with
  | ownedWrapper v =>
    obtain ⟨-, m, hm, hrole⟩ := hl z _ f hn hbelow
    obtain ⟨m', a, hm', he⟩ := hf
    cases hm.symm.trans hm'
    rw [he] at hrole
    cases hrole
  | ownedProxy q =>
    have htarget : q.target = some f := hbelow
    rw [leadsOn, htarget, Option.any_some] at hlead
    exact ⟨hlead, z, hz, _, q, hn, rfl, htarget⟩
  | _ => cases hlead

theorem deletions_disposed (hl : st.Linked) (hf : st.IsOwnedFar f) (x : Id) :
    (st.modifyAll (st.doomed (st.chain x)) Node.disposed).deletions f =
      st.deletions f + if f ∈ st.doomed (st.chain x) then 1 else 0 := by
  obtain ⟨⟨name, e, live⟩, a, hn, rfl⟩ := hf
  rw [deletions, get?_modifyAll (doomed_chain_nodup hl x), hn, deletions_eq hn]
  split <;> rfl

/-- The proxies that perish are those that are destroyed while they hold the structure. -/
theorem mem_perished_disposed (hl : st.Linked)
    (hlive : ∀ y ∈ st.doomed (st.chain x), st.IsLive y) :
    p ∈ st.perished (st.modifyAll (st.doomed (st.chain x)) Node.disposed) f ↔
      p ∈ st.doomed (st.chain x) ∧ ∃ n q, st.get? p = some n ∧ n.entity = .ownedProxy q ∧
        q.target = some f := by
  rw [perished, Finset.mem_filter, Finset.mem_range, lastHeld?,
    get?_modifyAll (doomed_chain_nodup hl x)]
  constructor
  · rintro ⟨-, hplive, hheld⟩
    obtain ⟨n, hn, hnlive⟩ := (Option.any_eq_true _ _).mp hplive
    rw [hn] at hheld
    split at hheld
    · rename_i hp
      obtain ⟨name, e, live⟩ := n
      cases hnlive
      cases e with
      | ownedProxy q => exact ⟨hp, _, q, hn, rfl, hheld⟩
      | _ => cases hheld
    · cases (Node.lastHeld?_of_live hnlive).symm.trans hheld
  · rintro ⟨hp, n, q, hn, he, htarget⟩
    obtain ⟨m, hm, hmlive⟩ := hlive p hp
    cases hn.symm.trans hm
    obtain ⟨name, e, live⟩ := n
    cases he
    refine ⟨lt_size hn, (Option.any_eq_true _ _).mpr ⟨_, hn, hmlive⟩, ?_⟩
    rw [if_pos hp, hn]
    exact htarget

/-- One proxy at most perishes with a structure that can be deleted. -/
theorem card_perished_disposed (hl : st.Linked) (hf : st.IsOwnedFar f)
    (hlive : ∀ y ∈ st.doomed (st.chain x), st.IsLive y) (hset : st.isSet f Layout.del = true) :
    (st.perished (st.modifyAll (st.doomed (st.chain x)) Node.disposed) f).card =
      if f ∈ st.doomed (st.chain x) ∧ x ≠ f then 1 else 0 := by
  have hbelow {z : Id} {n : Node} {q : OwnedProxy} (hn : st.get? z = some n)
      (he : n.entity = .ownedProxy q) (htarget : q.target = some f) : st.below? z = some f := by
    rw [below?_eq_some hn, he]
    exact htarget
  split
  · rename_i h
    obtain ⟨-, z, hz, n, q, hn, he, htarget⟩ := exists_proxy_of_mem_doomed hl hf h.1 h.2
    rw [Finset.card_eq_one]
    refine ⟨z, Finset.ext fun p => ?_⟩
    rw [mem_perished_disposed hl hlive, Finset.mem_singleton]
    constructor
    · rintro ⟨hp, m, q', hm, he', htarget'⟩
      exact eq_of_mem_chain hl.earlier (doomed_subset _ _ p hp) (doomed_subset _ _ z hz)
        (hbelow hm he' htarget') (hbelow hn he htarget)
    · rintro rfl
      exact ⟨hz, n, q, hn, he, htarget⟩
  · rename_i hnot
    rw [Finset.card_eq_zero, Finset.eq_empty_iff_forall_notMem]
    intro p hp
    obtain ⟨hdoomed, n, q, hn, he, htarget⟩ := (mem_perished_disposed hl hlive).mp hp
    refine hnot ⟨(mem_doomed_chain hl).mpr (Or.inr ⟨p, n, hdoomed, hn, ?_, ?_⟩), ?_⟩
    · rw [he, leadsOn, htarget, Option.any_some, hset]
    · rw [he]
      exact htarget
    · rintro rfl
      have hle := chain_le hl.earlier x p (doomed_subset _ _ p hdoomed)
      exact absurd hle (Nat.not_le_of_lt (hl.earlier p x (hbelow hn he htarget)))

end Store

namespace World

variable {w w₁ w₂ : World} {r : Option Id} {x f : Id}

/-- An entity was destroyed with all that it owns, or nothing of the kind has happened. -/
def Strikes (w : World) (r : Option Id) (w' : World) : Prop :=
  match r with
  | none => w.Idle w'
  | some x => w'.store = w.store.modifyAll (w.store.doomed (w.store.chain x)) Node.disposed ∧
      ∀ y ∈ w.store.doomed (w.store.chain x), w.store.IsLive y

theorem Quiet.trans_strikes (hq : w.Quiet w₁) (h : w₁.Strikes r w₂) : w.Strikes r w₂ := by
  cases r with
  | none => exact trans_of World.Idle hq.idle h
  | some x =>
    unfold Strikes at h ⊢
    rwa [hq.store] at h

theorem Strikes.quiet (h : w.Strikes r w₁) (hq : w₁.Quiet w₂) : w.Strikes r w₂ := by
  cases r with
  | none => exact trans_of World.Idle h hq.idle
  | some x => exact ⟨hq.store.trans h.1, h.2⟩

/-- A hollow proxy is struck alone. -/
theorem Strikes.perished_of_isHollow (h : w.Strikes (some x) w₁) (hl : w.store.Linked)
    (hx : w.store.IsHollow x) (f : Id) : w.store.perished w₁.store f = ∅ := by
  obtain ⟨hstore, hlive⟩ := h
  rw [Finset.eq_empty_iff_forall_notMem]
  intro p hp
  rw [hstore, Store.mem_perished_disposed hl hlive] at hp
  obtain ⟨hdoomed, m, q, hm, he, htarget⟩ := hp
  obtain ⟨n, v, hn, he', hnone⟩ := hx
  have hlead : w.store.leadsOn n.entity = false := by
    rw [he', Store.leadsOn, hnone]
    rfl
  rw [Store.doomed_of_not_leadsOn hn hlead, List.mem_singleton] at hdoomed
  subst hdoomed
  cases hn.symm.trans hm
  cases he.symm.trans he'
  cases htarget.symm.trans hnone

theorem Idle.perished (h : w.Idle w₁) (f : Id) : w.store.perished w₁.store f = ∅ := by
  rw [Finset.eq_empty_iff_forall_notMem]
  intro p hp
  obtain ⟨-, hlive, hheld⟩ := Finset.mem_filter.mp hp
  obtain ⟨n, hn, hnlive⟩ := (Option.any_eq_true _ _).mp hlive
  rw [h.lastHeld?, Store.lastHeld?_eq hn, Node.lastHeld?_of_live hnlive] at hheld
  cases hheld

/-- A structure of the far side is deleted by what strikes it, and by a proxy that perishes with it,
if it can be deleted. -/
theorem Strikes.deletions (h : w.Strikes r w₁) (hl : w.store.Linked) (hf : w.store.IsOwnedFar f) :
    w₁.store.deletions f = w.store.deletions f + (if r = some f then 1 else 0) +
      if w.store.isSet f Layout.del then (w.store.perished w₁.store f).card else 0 := by
  cases r with
  | none =>
    have hidle : w.Idle w₁ := h
    rw [hidle.deletions, hidle.perished f]
    simp
  | some x =>
    obtain ⟨hstore, hlive⟩ := h
    have hself : x ∈ w.store.doomed (w.store.chain x) := List.mem_cons_self
    simp only [hstore, Store.deletions_disposed hl hf, Option.some_inj]
    cases hset : w.store.isSet f Layout.del with
    | true =>
      rw [if_pos rfl, Store.card_perished_disposed hl hf hlive hset]
      by_cases hx : x = f
      · subst hx
        simp [hself]
      · simp [hx]
    | false =>
      have hiff : f ∈ w.store.doomed (w.store.chain x) ↔ x = f := by
        constructor
        · intro hmem
          by_contra hne
          cases hset.symm.trans (Store.exists_proxy_of_mem_doomed hl hf hmem hne).1
        · rintro rfl
          exact hself
      simp only [hiff, Bool.false_eq_true, if_false, Nat.add_zero]

end World

/-! ## Acts -/

namespace Act

variable {α β : Type} {w : World} {x s : Id} {n : Node} {r : Option Id}

/-- The act strikes an entity or nothing, unless the check of the start of shutdown has failed. -/
def Strikes (act : Act α) (w : World) (r : Option Id) : Prop :=
  Ends act w (fun _ w' => w.Strikes r w') fun e w' => World.Disturbed e w' ∨ w.Strikes r w'

theorem idle_of_quiet {act : Act α} (h : Respects World.Quiet act w) :
    Respects World.Idle act w :=
  respects_mono h fun _ hq => hq.idle

/-- What bypasses all that is neither shared nor a device. -/
theorem idle_of_bypasses {act : Act α}
    (h : ∀ r, r ≠ .sharedObject → r ≠ .sharedStructure → r ≠ .device →
      Respects (World.Bypasses r) act w) : Respects World.Idle act w :=
  fun phase => (h .ownedObject nofun nofun nofun phase).idle
    (h .ownedStructure nofun nofun nofun phase)

theorem strikes_of_idle {act : Act α} (h : Respects World.Idle act w) : Strikes act w none :=
  ends_mono (ends_of_respects h) (fun _ _ h => h) fun _ _ h => Or.inr h

theorem strikes_of_quiet {act : Act α} (h : Respects World.Quiet act w) : Strikes act w none :=
  strikes_of_idle (idle_of_quiet h)

/-- Before it strikes, an act may look at the start of shutdown. -/
theorem strikes_bind {act : Act α} {f : α → Act β}
    (h : Ends act w (fun _ w' => w.Quiet w') World.Disturbed)
    (hf : ∀ a w', w.Quiet w' → Strikes (f a) w' r) : Strikes (act >>= f) w r := by
  refine ends_bind (ends_mono h (fun _ _ h => h) fun _ _ hd => Or.inl hd) fun a w₁ hq => ?_
  exact ends_mono (hf a w₁ hq) (fun _ _ h => hq.trans_strikes h)
    fun _ _ h => h.imp id hq.trans_strikes

/-- An act that strikes nothing may look at things before. -/
theorem strikes_bind_of_quiet {act : Act α} {f : α → Act β} (h : Respects World.Quiet act w)
    (hf : ∀ a w', w.Quiet w' → Strikes (f a) w' none) : Strikes (act >>= f) w none := by
  refine ends_bind (P := fun _ w' => w.Quiet w') (ends_mono (ends_of_respects h) (fun _ _ h => h)
    fun _ _ hq => Or.inr hq.idle) fun a w₁ hq => ?_
  exact ends_mono (hf a w₁ hq) (fun _ _ h => hq.trans_strikes h)
    fun _ _ h => h.imp id hq.trans_strikes

/-- An act that has struck may only look at things afterwards. -/
theorem Strikes.bind {act : Act α} {f : α → Act β} (h : Strikes act w r)
    (hf : ∀ a w', Respects World.Quiet (f a) w') : Strikes (act >>= f) w r := by
  refine ends_bind h fun a w₁ h₁ => ?_
  exact ends_mono (ends_of_respects (hf a w₁)) (fun _ _ hq => h₁.quiet hq)
    fun _ _ hq => Or.inr (h₁.quiet hq)

/-! ### Entities that change -/

/-- A new entity of the boundary was never deleted. -/
theorem idle_cross {name : String} {e : Entity} {c : Crossing} {t : Tag}
    (he : (Node.mk name e true).deletions = 0) :
    Respects World.Idle
      (do
        requireRunning
        let x ← create name e
        emit (.crossed c t)
        pure x)
      w := by
  apply respects_bind (idle_of_quiet respects_requireRunning)
  intro _ w₁ _
  have hcreate : Respects World.Idle (create name e) w₁ :=
    fun _ => World.idle_push he (Node.lastHeld?_of_live rfl)
  refine respects_bind hcreate fun _ _ _ => ?_
  exact respects_map (idle_of_quiet (respects_crossed _ _))

theorem strikes_dispose (x : Id) : Strikes (dispose x) w (some x) :=
  ends_mono (ends_dispose x w) (fun _ _ h => ⟨h.store, h.live⟩) fun _ _ hd => Or.inl hd

/-- What has nothing below it is destroyed alone and holds nothing. -/
theorem idle_dispose {e : Entity} {name : String}
    (hn : w.store.get? x = some ⟨name, e, true⟩) (he : e.isUnlinked = true) :
    Respects World.Idle (dispose x) w := by
  obtain ⟨below, hchain⟩ : ∃ below, w.store.chain x = x :: below := ⟨_, rfl⟩
  show Respects World.Idle (disposeAlong (w.store.chain x)) w
  rw [hchain]
  apply respects_entity_bind
  intro m hm _
  cases hn.symm.trans hm
  have hrunning {f : Act Unit} (hf : ∀ w', Respects World.Idle f w')
      (hh : (Node.mk name e false).lastHeld? = none)
      (hd : (Node.mk name e false).deletions = (Node.mk name e true).deletions) :
      Respects World.Idle (retire x >>= fun _ => requireRunning >>= fun _ => f) w := by
    refine respects_bind (respects_modify (World.idle_modify hn hd hh)) fun _ _ _ => ?_
    exact respects_bind (idle_of_quiet respects_requireRunning) fun _ w' _ => hf w'
  cases e with
  | ownedWrapper v =>
    have hnone : v.object = none := Option.isNone_iff_eq_none.mp he
    refine hrunning (fun w' => ?_) rfl rfl
    rw [hnone, Option.isSome_none, Bool.and_false]
    exact respects_pure ()
  | ownedProxy p =>
    have hnone : p.target = none := Option.isNone_iff_eq_none.mp he
    refine hrunning (fun w' => ?_) hnone rfl
    rw [hnone]
    exact respects_pure ()
  | _ => cases he

/-- An entity is emptied first, and destroyed after some looks at things. -/
theorem idle_put_dispose {e : Entity} (e' : Entity) {name : String} {w₁ : World}
    (hn : w.store.get? x = some ⟨name, e, true⟩) (he : e'.isUnlinked = true)
    (hw : w₁.store = w.store.modify x fun n => { n with entity := e' }) :
    Respects World.Idle (dispose x) w₁ := by
  have hn₁ : w₁.store.get? x = some ⟨name, e', true⟩ := by
    rw [hw, Store.get?_modify, if_pos rfl, hn]
    rfl
  exact idle_dispose hn₁ he

end Act

/-! ## Wrappers -/

namespace OwnedClass

variable {w : World} {s : Id}

theorem strikes_retrieve (c : OwnedClass) (s : Id) : Strikes (c.retrieve s) w none := by
  apply ends_entity_bind
  intro n hn hlive
  obtain ⟨name, e, live⟩ := n
  cases hlive
  cases e with
  | ownedWrapper v =>
    dsimp only
    refine strikes_bind_of_quiet (respects_require _ _) fun _ w₁ hq => ?_
    split
    · let e : Entity := .ownedWrapper { v with object := none }
      let w₂ : World := { w₁ with store := w₁.store.modify s fun n => { n with entity := e } }
      have hn₁ := hq.store ▸ hn
      have hput : w₁.Idle w₂ := World.idle_modify hn₁ rfl rfl
      have hdispose : Respects World.Idle (dispose s) w₂ :=
        idle_put_dispose e hn₁ rfl rfl
      have hrest : Strikes (dispose s >>= fun _ => emit (.crossed .tookBack c.tag) >>= fun _ =>
          pure v.object) w₂ none :=
        (strikes_of_idle hdispose).bind fun _ _ =>
          respects_map (respects_crossed _ _)
      refine ends_modify_bind (ends_mono hrest (fun _ _ h => ?_) fun _ _ h => ?_)
      · exact trans_of World.Idle hput h
      · exact h.imp id fun h => trans_of World.Idle hput h
    · exact strikes_of_quiet (respects_pure _)
  | _ => exact ends_refuse

/-- What is taken back leaves a wrapper that holds nothing. -/
theorem strikes_takeBack (c : OwnedClass) (s : Id) : Strikes (c.takeBack s) w none := by
  refine strikes_bind_of_quiet respects_requireRunning fun _ _ _ => ?_
  refine strikes_bind_of_quiet (respects_wrapperTag s) fun found _ _ => ?_
  split
  · exact c.strikes_retrieve s
  · cases c.derived? found with
    | some d =>
      exact strikes_bind_of_quiet respects_requireRunning fun _ _ _ => d.strikes_retrieve s
    | none =>
      exact strikes_of_quiet (respects_map (respects_check _))

end OwnedClass

/-! ## Proxies -/

namespace ProxyClass

variable {w : World} {x : Id}

/-- A structure that is taken out is not deleted, even if it is reported for being undeletable. -/
theorem strikes_extract (c : ProxyClass) (x : Id) : Strikes (c.extract x) w none := by
  unfold extract ownedProxy
  rw [bind_assoc]
  apply ends_entity_bind
  intro n hn hlive
  obtain ⟨name, e, live⟩ := n
  cases hlive
  cases e with
  | ownedProxy p =>
    dsimp only
    split
    · let e : Entity := .ownedProxy { p with target := none }
      let w₁ : World := { w with store := w.store.modify x fun n => { n with entity := e } }
      have hput : w.Idle w₁ := World.idle_modify hn rfl rfl
      have hdispose {w' : World} (hq : w₁.Quiet w') :
          Ends (dispose x) w' (fun _ w'' => w.Idle w'') World.Disturbed := by
        have hidle : Respects World.Idle (dispose x) w' :=
          idle_put_dispose e hn rfl hq.store
        have hends := ends_and_respects (ends_dispose x w') hidle
        refine ends_mono hends (fun _ _ h => ?_) fun _ _ h => h.1
        exact trans_of World.Idle hput (trans_of World.Idle hq.idle h.2)
      rw [pure_bind]
      refine ends_modify_bind (ends_ensuring (ends_of_respects (c.respects_handingOut p)) ?_ ?_)
      · intro _ w' hq
        exact ends_mono (hdispose hq) (fun _ _ h => Or.inr h) fun _ _ _ => trivial
      · intro _ w' hq
        exact ends_mono (hdispose hq) (fun _ _ h => h) fun _ _ hd => Or.inl hd
    · exact ends_refuse
  | _ => exact ends_refuse

/-- What is surrendered to a class that does not know it is destroyed with all that it owns. -/
theorem strikes_surrender (c : ProxyClass) (x : Id) :
    Strikes (c.surrender x) w (if c.empties w.store x then none else some x) := by
  refine strikes_bind (ends_onUnwind_requireRunning x) fun _ w₁ h₁ => ?_
  rw [← h₁.store]
  apply ends_entity_bind
  intro n hn hlive
  have hempties : c.empties w₁.store x = c.extracts n.entity := by
    rw [empties, hn, Option.any_some]
  rw [hempties]
  have hextract (d : ProxyClass) (hd : c.Recovers d) {w₂ : World} (hq : w₁.Quiet w₂) :
      Strikes (d.extract x) w₂ (if c.extracts n.entity then none else some x) := by
    cases hextracts : c.extracts n.entity with
    | true => exact d.strikes_extract x
    | false =>
      unfold extract ownedProxy
      rw [bind_assoc]
      apply ends_entity_bind
      intro m hm _
      cases hn.symm.trans (hq.store ▸ hm)
      obtain ⟨name, e, live⟩ := n
      cases e with
      | ownedProxy p =>
        dsimp only
        split
        · rename_i hcls
          exact absurd (hcls ▸ hd) (of_decide_eq_false hextracts)
        · exact ends_refuse
      | _ => exact ends_refuse
  have hdispose {w₂ : World} (hq : w₁.Quiet w₂) :
      Ends (dispose x) w₂ (fun _ w' => w₁.Strikes (some x) w') World.Disturbed :=
    ends_mono (ends_dispose x w₂) (fun _ _ h => hq.trans_strikes (r := some x) ⟨h.store, h.live⟩)
      fun _ _ hd => hd
  cases ht : n.entity.reportedTag? with
  | none =>
    rw [extracts_of_reportedTag?_none ht]
    refine ends_ensuring (P := fun _ w' => w₁.Quiet w') (V := fun _ w' => w₁.Quiet w') ?_
      (fun _ _ hq => ?_) fun _ _ hq => ?_
    · exact ends_of_respects (respects_map (respects_check _))
    · exact ends_mono (hdispose hq) (fun _ _ h => Or.inr h) fun _ _ _ => trivial
    · exact ends_mono (hdispose hq) (fun _ _ h => h) fun _ _ hd => Or.inl hd
  | some found =>
    dsimp only
    split
    · exact hextract c (Or.inl rfl) (refl_of World.Quiet w₁)
    · rename_i hfound
      cases hd : c.ownedDerived? found with
      | some d =>
        exact strikes_bind (ends_onUnwind_requireRunning x) fun _ w₂ h₂ =>
          hextract d (recovers_of_ownedDerived? hd) h₂
      | none =>
        rw [extracts_of_ownedDerived?_none ht hfound hd]
        exact (strikes_dispose x).bind fun _ _ =>
          respects_map (respects_check _)

theorem idle_takeTarget (x : Id) : Respects World.Idle (takeTarget x) w := by
  apply respects_entity_bind
  intro n hn hlive
  obtain ⟨name, e, live⟩ := n
  cases hlive
  cases e with
  | ownedProxy p =>
    refine respects_bind (respects_modify (World.idle_modify hn rfl rfl)) fun _ _ _ => ?_
    exact respects_pure _
  | _ => exact respects_refuse _

theorem ends_takeTarget_hollow {U : Failure → World → Prop} :
    Ends (takeTarget x) w (fun _ w' => w'.store.IsHollow x) U := by
  apply ends_entity_bind
  intro n hn hlive
  obtain ⟨name, e, live⟩ := n
  cases e with
  | ownedProxy p =>
    apply ends_modify_bind
    refine ends_pure ⟨⟨name, .ownedProxy { p with target := none }, live⟩, _, ?_, rfl, rfl⟩
    show (w.store.modify x _).get? x = _
    rw [Store.get?_modify, if_pos rfl, hn]
    rfl
  | _ => exact ends_refuse

/-- A class that does not know a proxy destroys it, and it deletes the structure that it holds. -/
theorem ends_surrender_unknown {c : ProxyClass} {n : Node} {v : OwnedProxy} {f : Id}
    (hl : w.store.Linked) (hf : w.store.IsOwnedFar f) (hn : w.store.get? x = some n)
    (he : n.entity = .ownedProxy v) (hv : v.target = some f) (hc : ¬ c.Recovers v.cls) :
    Ends (c.surrender x) w
      (fun _ w' => w'.store.deletions f =
        w.store.deletions f + if w.store.isSet f Layout.del then 1 else 0)
      fun e w' => World.Disturbed e w' ∨ w'.store.deletions f =
        w.store.deletions f + if w.store.isSet f Layout.del then 1 else 0 := by
  have hempties : c.empties w.store x = false := by
    rw [empties, hn, Option.any_some, he]
    exact decide_eq_false hc
  have hne : x ≠ f := by
    rintro rfl
    obtain ⟨m, a, hm, he'⟩ := hf
    cases hn.symm.trans hm
    cases he.symm.trans he'
  have hdoomed : f ∈ w.store.doomed (w.store.chain x) ↔ w.store.isSet f Layout.del = true := by
    constructor
    · exact fun h => (Store.exists_proxy_of_mem_doomed hl hf h hne).1
    · intro hset
      refine (Store.mem_doomed_chain hl).mpr (Or.inr ⟨x, n, List.mem_cons_self, hn, ?_, ?_⟩)
      · rw [he, Store.leadsOn, hv, Option.any_some, hset]
      · rw [he]
        exact hv
  have hdeletions {w' : World} (h : w.Strikes (some x) w') : w'.store.deletions f =
      w.store.deletions f + if w.store.isSet f Layout.del then 1 else 0 := by
    rw [h.1, Store.deletions_disposed hl hf]
    simp only [hdoomed]
  have hstrikes := c.strikes_surrender (w := w) x
  rw [hempties] at hstrikes
  exact ends_mono hstrikes (fun _ _ h => hdeletions h) fun _ _ h => h.imp id hdeletions

end ProxyClass

/-! ## Structures -/

namespace Act

variable {w : World} {s x : Id} {n : Node} {r : Option Id} {name : String}

/-- The function `del` of a wrapper strikes the wrapper behind the receiver. -/
theorem strikes_ownedMember {v : OwnedWrapper} {live : Bool}
    (hn : w.store.get? s = some ⟨name, .ownedWrapper v, live⟩) {i : Nat}
    (hset : w.store.isSet s i = true) :
    Ends (ownedMember v.cls i r) w
      (fun _ w' => w.Strikes (if i = Layout.del then w.store.callee? s Layout.del r else none) w')
      fun _ _ => True := by
  match i with
  | 0 =>
    have htag : w.store.wrapperTag? s = some v.cls.tag := by
      rw [Store.wrapperTag?_eq hn]
      rfl
    have hcallee : w.store.callee? s Layout.del r =
        r.filter fun x => decide (w.store.wrapperTag? x = some v.cls.tag) := by
      rw [Store.callee?, if_pos (show w.store.isSet s Layout.del = true from hset), htag]
    refine ends_bind (P := fun _ w' => w.Strikes (w.store.callee? s Layout.del r) w') ?_
      fun _ w' h => ends_pure h
    apply ends_baseMember_cases
    · intro w' hq hnone
      rw [hcallee, hnone]
      exact hq.idle
    · intro x w' hq hx hsome
      rw [hcallee, hsome]
      exact ends_mono (strikes_dispose x) (fun _ _ h => hq.trans_strikes h) fun _ _ _ => trivial
  | index + 1 =>
    exact ends_mono (ends_of_respects (respects_reply (respects_interfaceMember _ _ _)))
      (fun _ _ hq => hq.idle) fun _ _ _ => trivial

theorem strikes_ownedFarMember {i : Nat} (hset : w.store.isSet s i = true)
    (htag : w.store.wrapperTag? s = none) :
    Strikes (ownedFarMember i x) w
      (if i = Layout.del then w.store.callee? s Layout.del (some x) else none) := by
  apply ends_entity_bind
  intro n hn hlive
  obtain ⟨name, e, live⟩ := n
  cases e with
  | ownedFar f =>
    cases i with
    | zero =>
      have hx : w.store.wrapperTag? x = none := by
        rw [Store.wrapperTag?_eq hn]
        rfl
      have hcallee : w.store.callee? s Layout.del (some x) = some x := by
        rw [Store.callee?, if_pos (show w.store.isSet s Layout.del = true from hset), htag]
        simp [hx]
      rw [hcallee]
      show Strikes (dispose x >>= fun _ => pure Reply.nothing) w (some x)
      exact (strikes_dispose x).bind fun _ _ => respects_pure _
    | succ index => exact strikes_of_quiet (respects_reply (respects_farAnswer x _ _))
  | _ => exact ends_refuse

/-- A call of a member of an owned structure strikes what `del` strikes, and nothing else. -/
theorem strikes_call (hr : w.store.HasRole s .ownedStructure) (i : Nat) :
    Strikes (call s i r) w
      (if i = Layout.del then w.store.callee? s Layout.del r else none) := by
  obtain ⟨m, hm, hrole⟩ := hr
  apply ends_entity_bind
  intro n hn hlive
  cases hm.symm.trans hn
  obtain ⟨name, e, live⟩ := m
  cases ht : e.struct? with
  | none => exact ends_refuse
  | some t =>
    refine ends_ofOption_bind rfl ?_
    have hset := Store.isSet_eq hm ht i
    split
    · rename_i hi
      rw [hi] at hset
      cases e with
      | ownedWrapper v => exact ends_contained (strikes_ownedMember hm hset)
      | ownedFar f =>
        cases r with
        | none => exact ends_refuse
        | some x =>
          have htag : w.store.wrapperTag? s = none := by
            rw [Store.wrapperTag?_eq hm]
            rfl
          exact strikes_ownedFarMember hset htag
      | _ => cases hrole
    · rename_i hi
      rw [Bool.not_eq_true] at hi
      rw [hi] at hset
      have hnone : (if i = Layout.del then w.store.callee? s Layout.del r else none) = none := by
        split
        · rename_i hdel
          rw [Store.callee?, ← hdel, hset]
          rfl
        · rfl
      rw [hnone]
      exact strikes_of_quiet (respects_pure _)

end Act

end ObjectBoundary
