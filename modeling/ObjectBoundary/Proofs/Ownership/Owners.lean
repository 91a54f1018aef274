import ObjectBoundary.Proofs.Ownership.Plans

/-!
# Owners

An owned object that exists has exactly one owner: a slot that holds it or a wrapper that owns it.
The slots and wrappers that own an object are counted, and steps keep their number right.

* `Owner`, `State.Owns`: who owns an object.
* `Kept`: as many slots own an object as it is loose.
* `Balanced.kept_step`: a step keeps this, and changes custody as foreseen.
* `Kept.unique`, `Kept.exists_owner`: so an object that exists has exactly one owner.
-/

namespace ObjectBoundary

/-! ## Counting owners -/

namespace Node

variable {n : Node} {z : Id}

theorem keeps_eq_one (hlive : n.live = true) (h : n.entity.keeps? = some z) : n.keeps z = 1 :=
  if_pos ⟨hlive, h⟩

theorem keeps?_of_keeps_ne_zero (h : n.keeps z ≠ 0) :
    n.live = true ∧ n.entity.keeps? = some z := by
  by_contra hnot
  exact h (if_neg hnot)

theorem presence_le_one (n : Node) : n.presence ≤ 1 := by
  unfold presence
  split <;> omega

end Node

namespace Store

variable {st : Store} {z : Id}

theorem presence_le_one (st : Store) (z : Id) : st.presence z ≤ 1 := by
  unfold presence
  cases st.get? z with
  | none => exact Nat.zero_le 1
  | some n => exact n.presence_le_one

theorem presence_eq_one_iff : st.presence z = 1 ↔ st.IsLive z ∧ st.HasRole z .ownedObject := by
  unfold presence IsLive HasRole
  cases hn : st.get? z with
  | none => simp
  | some n =>
    have hnode : n.presence = 1 ↔ n.live = true ∧ n.entity.role = .ownedObject := by
      unfold Node.presence
      split <;> simp_all
    simpa using hnode

end Store

namespace Session

open ObjectBoundary

variable {s : State} {x : Step} {out : Ledger} {slots : Slots} {z : Id}

namespace Slots

/-- A slot that is found is counted. -/
theorem one_le_counted (hnamed : slots.Named) {f : Slot → Option Id} {name : String} {slot : Slot}
    (h : slots.find? name = some slot) (hf : f slot = some z) : 1 ≤ slots.counted f z := by
  have hwithout := counted_without hnamed f name z
  rw [h, Option.bind_some, hf, credit_self] at hwithout
  omega

/-- Two slots are counted separately. -/
theorem two_le_counted (hnamed : slots.Named) {f : Slot → Option Id} {a b : String}
    {slot slot' : Slot} (ha : slots.find? a = some slot) (hb : slots.find? b = some slot')
    (hne : a ≠ b) (hfa : f slot = some z) (hfb : f slot' = some z) : 2 ≤ slots.counted f z := by
  have hwithout := counted_without hnamed f a z
  rw [ha, Option.bind_some, hfa, credit_self] at hwithout
  have hb' : (slots.without a).find? b = some slot' := by
    rw [find?_without, if_neg (Ne.symm hne), hb]
  have hone := one_le_counted (hnamed.without a) hb' hfb
  omega

theorem exists_of_counted_ne_zero (hnamed : slots.Named) {f : Slot → Option Id}
    (h : slots.counted f z ≠ 0) : ∃ name slot, slots.find? name = some slot ∧ f slot = some z := by
  obtain ⟨e, he, hf⟩ := List.countP_pos_iff.mp (Nat.pos_of_ne_zero h)
  exact ⟨e.1, e.2, hnamed.find?_of_mem he, of_decide_eq_true hf⟩

end Slots

/-! ## Owners -/

/-- Who owns an object: the session, under a name, or a wrapper. -/
inductive Owner where
  | slot (name : String)
  | wrapper (x : Id)
deriving DecidableEq

/-- The owner of an object. A wrapper that has ceased to exist owns nothing. -/
def State.Owns (s : State) : Owner → Id → Prop
  | .slot name, o => ∃ view, s.slots.find? name = some (.owner o view)
  | .wrapper x, o => ∃ n, s.world.store.get? x = some n ∧ n.live = true ∧ n.entity.keeps? = some o

theorem owned?_eq_some {slot : Slot} {o : Id} (h : slot.owned? = some o) :
    ∃ view, slot = .owner o view := by
  cases slot with
  | owner o' view => cases h; exact ⟨view, rfl⟩
  | _ => cases h

/-- As many slots own an object as it is loose, and no wrapper that owns nothing can be deleted
through its structure. -/
structure Kept (s : State) : Prop where
  loose : ∀ z, s.world.store.loose z = s.slots.owners z
  guarded : s.world.store.Guarded

theorem kept_initial (e : Environment) (c : Option Settings) : Kept (.initial e c) where
  loose _ := rfl
  guarded := nofun

/-- A step changes custody as foreseen, and slots own what is loose. -/
theorem Balanced.kept_step (h : Balanced s out) (hk : Kept s) (hx : s.Undisturbed x) :
    Kept (s.step x).2 ∧ ∃ δ, s.world.store.Custody (s.step x).2.world.store δ (s.gone x) := by
  obtain ⟨hproceeds, hundisturbed⟩ := hx
  obtain ⟨p, hp, hfree, hcases⟩ := State.proceeds_cases hproceeds
  have hbalances := Step.balances (w := s.begun) hp h.sound h.fit
  have hcustody : p.Custody s.slots s.begun (s.gone x) :=
    Step.custody (s := ⟨s.begun, s.slots⟩) hp h.sound h.fit
  have hremaining (z : Id) := Slots.counted_remaining h.named Slot.owned? p z
  rcases hcases with ⟨value, slot, w', hact, -, hstep⟩ | ⟨failure, w', hact, houtcome, hstep⟩
  · have hnull := (Act.ends_of_done hbalances hact).2.2.1
    have hc : s.world.store.Custody w'.store _ (s.gone x) := Act.ends_of_done hcustody hact
    rw [hstep]
    refine ⟨⟨fun z => ?_, hc.guarded hk.guarded⟩, _, hc⟩
    have hloose := hc.loose z
    rw [hk.loose z, Pi.sub_apply, Slots.owners] at hloose
    show w'.store.loose z = _
    rw [hloose]
    cases hm : p.makes with
    | none =>
      rw [hnull hm]
      show _ + (credit none 1 z - _) = ((State.remaining s.slots p).counted Slot.owned? z : Int)
      rw [hremaining, credit_none, Pi.zero_apply, zero_sub, sub_eq_add_neg]
      rfl
    | some name =>
      show _ = (((State.remaining s.slots p).add name slot).counted Slot.owned? z : Int)
      rw [Slots.counted_add, hremaining]
      show _ + (credit slot.owned? 1 z - _) = _ - credit (s.slots.ownedAt p.consumes) 1 z + _
      omega
  · have hc : s.world.store.Custody w'.store _ (s.gone x) :=
      (Act.ends_of_unwound hcustody hact).resolve_left fun hd =>
        hundisturbed failure houtcome (by rw [hstep]; exact hd)
    rw [hstep]
    refine ⟨⟨fun z => ?_, hc.guarded hk.guarded⟩, _, hc⟩
    have hloose := hc.loose z
    rw [hk.loose z, Pi.neg_apply, Slots.owners] at hloose
    show w'.store.loose z = ((State.remaining s.slots p).counted Slot.owned? z : Int)
    rw [hloose, hremaining, sub_eq_add_neg]
    rfl

/-- Custody is right in every reachable state. -/
theorem Reachable.kept (h : Reachable State.Undisturbed s out) : Kept s := by
  induction h with
  | initial e c => exact kept_initial e c
  | step x h hx ih => exact (h.balanced.kept_step ih hx).1

/-- Steps keep custody right, one after the other. -/
theorem Kept.along {xs : List Step} (hk : Kept s) (h : Balanced s out)
    (hxs : s.All State.Undisturbed xs) : Kept (s.after xs) := by
  induction xs generalizing s out with
  | nil => exact hk
  | cons x xs ih => exact ih (h.kept_step hk hxs.1).1 (h.step hxs.1) hxs.2

/-! ## Exactly one owner -/

section Unique

variable (hk : Kept s) (hb : Balanced s out) {k k' : Owner} {o : Id}
include hk

/-- An object that exists has one owner more than that, and one that does not has none. -/
theorem Kept.count (o : Id) :
    s.world.store.keepers o + s.slots.owners o = s.world.store.presence o := by
  have hloose := hk.loose o
  rw [Store.loose] at hloose
  omega

include hb

theorem Kept.unique (h : s.Owns k o) (h' : s.Owns k' o) : k = k' := by
  have hcount := hk.count o
  have hle := s.world.store.presence_le_one o
  have hslot {name : String} (h : s.Owns (.slot name) o) : 1 ≤ s.slots.owners o := by
    obtain ⟨view, hfind⟩ := h
    exact Slots.one_le_counted hb.named hfind rfl
  have hwrapper {x : Id} (h : s.Owns (.wrapper x) o) : 1 ≤ s.world.store.keepers o := by
    obtain ⟨n, hn, hlive, hkeeps⟩ := h
    have := s.world.store.le_total (Node.keeps o) hn
    rwa [Node.keeps_eq_one hlive hkeeps] at this
  cases k with
  | slot a =>
    cases k' with
    | slot b =>
      by_contra hne
      obtain ⟨view, ha⟩ := h
      obtain ⟨view', hb'⟩ := h'
      have htwo : 2 ≤ s.slots.owners o :=
        Slots.two_le_counted hb.named ha hb' (fun heq => hne (congrArg _ heq)) rfl rfl
      omega
    | wrapper y =>
      have := hslot h
      have := hwrapper h'
      omega
  | wrapper x =>
    cases k' with
    | slot b =>
      have := hslot h'
      have := hwrapper h
      omega
    | wrapper y =>
      by_contra hne
      obtain ⟨n, hn, hlive, hkeeps⟩ := h
      obtain ⟨m, hm, hmlive, hmkeeps⟩ := h'
      have htwo := s.world.store.add_le_total (Node.keeps o) hn hm fun heq => hne (congrArg _ heq)
      rw [Node.keeps_eq_one hlive hkeeps, Node.keeps_eq_one hmlive hmkeeps] at htwo
      change 2 ≤ s.world.store.keepers o at htwo
      omega

/-- What is owned exists. -/
theorem Kept.presence_of_owns (h : s.Owns k o) : s.world.store.presence o = 1 := by
  have hcount := hk.count o
  have hle := s.world.store.presence_le_one o
  suffices 1 ≤ s.world.store.keepers o + s.slots.owners o by omega
  cases k with
  | slot name =>
    obtain ⟨view, hfind⟩ := h
    have hone : 1 ≤ s.slots.owners o := Slots.one_le_counted hb.named hfind rfl
    omega
  | wrapper x =>
    obtain ⟨n, hn, hlive, hkeeps⟩ := h
    have hone := s.world.store.le_total (Node.keeps o) hn
    rw [Node.keeps_eq_one hlive hkeeps] at hone
    change 1 ≤ s.world.store.keepers o at hone
    omega

/-- What exists is owned. -/
theorem Kept.exists_owner (h : s.world.store.presence o = 1) : ∃ k, s.Owns k o := by
  have hcount := hk.count o
  by_cases howners : s.slots.owners o = 0
  · have hkeepers : s.world.store.keepers o ≠ 0 := by omega
    obtain ⟨x, n, hn, hne⟩ : ∃ x n, s.world.store.get? x = some n ∧ n.keeps o ≠ 0 := by
      by_contra hnone
      refine hkeepers ((Store.total_eq_zero_iff _ _).mpr fun x n hn => ?_)
      by_contra hne
      exact hnone ⟨x, n, hn, hne⟩
    obtain ⟨hlive, hkeeps⟩ := Node.keeps?_of_keeps_ne_zero hne
    exact ⟨.wrapper x, n, hn, hlive, hkeeps⟩
  · obtain ⟨name, slot, hfind, hslot⟩ := Slots.exists_of_counted_ne_zero hb.named howners
    obtain ⟨view, rfl⟩ := owned?_eq_some hslot
    exact ⟨.slot name, view, hfind⟩

end Unique

end Session

end ObjectBoundary
