import Mathlib.Logic.Relation
import ObjectBoundary.Proofs.Acts.Walks
import ObjectBoundary.Proofs.Session.HandOver

/-!
# Links between entities

A wrapper is linked to its object and a proxy to its structure. A link is made with the entity that
it belongs to, so it leads to one that was there before, and afterwards it stays, unless it belongs
to a single owner who gives up what it leads to. So there is no way back along links, and whatever
goes down them ends, however long the way is.

* `Store.LinksTo`, `Store.Linked.acyclic`: links lead to no entity twice.
* `Entity.KeepsLink`: a link stays, or it is lost for good.
* `State.LinksLeadDown`: what is known of the links of a state and of all that goes down them.
* `links_lead_down`: it holds of every reachable state.
-/

namespace ObjectBoundary

/-- An entity is linked to another one. -/
def Store.LinksTo (st : Store) (x y : Id) : Prop := st.below? x = some y

/-- Links lead down in the order of creation, and so do ways along them. -/
theorem Store.Linked.lt_of_transGen {st : Store} (h : st.Linked) {x y : Id}
    (hway : Relation.TransGen st.LinksTo x y) : y < x := by
  induction hway with
  | single hlink => exact h.earlier _ _ hlink
  | tail _ hlink ih => exact (h.earlier _ _ hlink).trans ih

theorem Store.Linked.acyclic {st : Store} (h : st.Linked) (x : Id) :
    ¬ Relation.TransGen st.LinksTo x x := fun hcycle => Nat.lt_irrefl x (h.lt_of_transGen hcycle)

namespace Entity

/-- A proxy or wrapper with a single owner. -/
def isScoped : Entity → Bool
  | ownedWrapper _ | ownedProxy _ => true
  | _ => false

/-- What an entity has become is linked as the entity was, unless what belongs to a single owner has
lost its link. -/
structure KeepsLink (e e' : Entity) : Prop where
  role : e'.role = e.role
  linkRole : e'.linkRole = e.linkRole
  link : e'.below? = e.below? ∨ (e.isScoped = true ∧ e'.below? = none)

theorem Continues.keepsLink {e e' : Entity} (h : e.Continues e') : e.KeepsLink e' := by
  refine ⟨h.role, h.linkRole, ?_⟩
  cases e <;> cases e' <;> try contradiction
  case sharedWrapper => exact Or.inl (congrArg some h.2.1)
  case ownedWrapper => exact h.2.2.1.imp id fun hlost => ⟨rfl, hlost⟩
  case sharedProxy => exact Or.inl (congrArg some h.2)
  case ownedProxy => exact h.2.imp id fun hlost => ⟨rfl, hlost⟩
  all_goals exact Or.inl rfl

end Entity

namespace Session

open Act

variable {s : State} {out : Ledger} {x : Step} {xs : List Step}

namespace Upright

/-- No step takes an entity away or turns it into another one. -/
theorem continues_step (h : Upright s) (hx : s.Proceeds x) :
    s.world.store.Continues (s.step x).2.world.store := by
  obtain ⟨p, hp, -, hcases⟩ := State.proceeds_cases hx
  rcases hcases with ⟨value, slot, w', hact, -, hstep⟩ | ⟨e, w', hact, -, hstep⟩
  · obtain ⟨hturns, -⟩ := ends_of_done (Step.balances (w := s.begun) hp h.sound h.fit) hact
    rw [hstep]
    exact hturns.continues
  · obtain ⟨δ, hturns⟩ := h.turns_of_unwound hp hact
    rw [hstep]
    exact hturns.continues

theorem continues (h : Upright s) (hxs : s.All State.Proceeds xs) :
    s.world.store.Continues (s.after xs).world.store := by
  induction xs generalizing s with
  | nil => exact .refl _
  | cons x xs ih => exact (h.continues_step hxs.1).trans (ih (h.step hxs.1) hxs.2)

end Upright

/-- What is known of the links of a state. -/
structure State.LinksLeadDown (s : State) : Prop where
  /-- Identities are given in the order of creation. -/
  earlier : ∀ x n y, s.world.store.get? x = some n → n.entity.below? = some y →
    y < x ∧ s.world.store.HasRole y n.entity.linkRole
  acyclic : ∀ x, ¬ Relation.TransGen s.world.store.LinksTo x x
  kept : ∀ xs, s.All State.Proceeds xs → ∀ x n, s.world.store.get? x = some n →
    ∃ n', (s.after xs).world.store.get? x = some n' ∧ n.entity.KeepsLink n'.entity
  /-- Wherever entities are linked like this, whatever goes down from one of them ends. It visits
  entities of its chain in order, and each of them once at most. -/
  walks : ∀ (α : Type) (op : Walk α) (x : Id) (phase : Phase) (w : World),
    w.store.below? = s.world.store.below? → ∃ ys, op.Visits phase x w ys (op.act x phase w) ∧
      ys <+: s.world.store.chain x ∧ ys.Nodup

/-- In every reachable state links lead to earlier entities of the right kind and never change but
for getting lost, so that all that goes down them ends. -/
theorem links_lead_down (h : Reachable State.Proceeds s out) : s.LinksLeadDown where
  earlier := h.upright.sound.linked
  acyclic := Store.Linked.acyclic h.upright.sound.linked
  kept xs hxs x n hn := by
    obtain ⟨n', hn', hcont⟩ := h.upright.continues hxs x n hn
    exact ⟨n', hn', hcont.entity.keepsLink⟩
  walks α op x phase w hlinks := by
    have earlier := h.upright.sound.earlier
    rw [← hlinks] at earlier
    rw [← Store.chain_congr hlinks]
    obtain ⟨ys, hvisits, hprefix⟩ := op.exists_visits earlier x phase
    exact ⟨ys, hvisits, hprefix, hprefix.sublist.nodup (Store.chain_nodup earlier x)⟩

/-- An object is wrapped twice, and an owned one is given away, each time with a proxy on top. -/
def linkedTwice : List Step :=
  [.create (.sharedObject ⟨.client 7, none⟩) "a",
    .shared (.wrap .client (some "a") "w"), .shared (.receive .client (some "w") "p"),
    .shared (.wrap .client (some "p") "v"), .shared (.receive .client (some "v") "q"),
    .create (.ownedObject ⟨.client 5, none⟩) "b", .owned (.give .client (some "b") "g"),
    .owned (.adopt .client (some "g") "r")]

/-- The handle on top gives up references on all levels, and the owned proxy loses its link when its
structure is taken from it. -/
theorem links_lead_down_linkedTwice :
    let s := (State.initial {} (some .default)).after linkedTwice
    (¬ Relation.TransGen s.world.store.LinksTo 4 4) ∧
      (∃ ys, Walk.release.Visits .normal 4 s.world ys (release 4 .normal s.world) ∧
        ys <+: [4, 3, 2, 1, 0] ∧ ys.Nodup) ∧
      s.world.store.below? 7 = some 6 ∧
      ∃ n n', s.world.store.get? 7 = some n ∧
        (s.after [.owned (.takeTarget "r" "h")]).world.store.get? 7 = some n' ∧
          n'.entity.below? = none ∧ n.entity.isScoped = true := by
  intro s
  have hreachable : Reachable State.Proceeds s _ :=
    ((Reachable.initial {} (some .default)).after linkedTwice (by decide +kernel)).proceeds
  have hlinks := links_lead_down hreachable
  have htaken : s.All State.Proceeds [.owned (.takeTarget "r" "h")] :=
    (State.all_of_areDone (by decide +kernel)).imp fun _ _ h => h.1
  obtain ⟨n, hn, hbelow⟩ : ∃ n, s.world.store.get? 7 = some n ∧ n.entity.below? = some 6 :=
    ⟨_, rfl, rfl⟩
  obtain ⟨n', hn', hkeeps⟩ := hlinks.kept _ htaken 7 n hn
  have hlost : n'.entity.below? = none :=
    (Store.below?_eq_some hn').symm.trans (by decide +kernel)
  have hscoped : n.entity.isScoped = true := by
    rcases hkeeps.link with hkept | hscoped
    · rw [hlost, hbelow] at hkept
      cases hkept
    · exact hscoped.1
  exact ⟨hlinks.acyclic 4, hlinks.walks _ .release 4 .normal s.world rfl,
    (Store.below?_eq_some hn).trans hbelow, n, n', hn, hn', hlost, hscoped⟩

end Session

end ObjectBoundary
