import ObjectBoundary.Act.Members
import ObjectBoundary.Proofs.References.Moves

/-!
# References taken and given up directly

Where a structure has its members, calling `add_ref` or `release` on itself takes a reference to
it or gives one up, and nothing else. So does a class that recognises its own wrapper.

* `follows_recognises`: a class acts on a wrapper that it made.
* `follows_call_addRef`, `follows_call_release`: the members act on their own structure.
* `follows_through`: so they do when they are called through a proxy.
-/

namespace ObjectBoundary.Act

variable {α β : Type} {w : World} {z : Id} {n : Node} {t : Tag} {y : Act β} {g : β → α}

theorem follows_recognises {f : Bool → Act α} (hn : w.store.get? z = some n)
    (hlive : n.live = true) (ht : n.entity.wrapperTag? = some t) (h : Follows (f true) y g w) :
    Follows (recognises t z >>= f) y g w := by
  unfold recognises wrapperTag
  simp only [bind_assoc]
  refine Follows.entity_bind hn hlive (Follows.ofOption_bind ht ?_)
  rw [beq_self_eq_true]
  exact h

/-- A base member acts on its receiver, if that is a wrapper of its class. -/
theorem follows_baseMember {a : α} {f : Id → Act α} (hn : w.store.get? z = some n)
    (hlive : n.live = true) (ht : n.entity.wrapperTag? = some t) (h : Follows (f z) y g w) :
    Follows (baseMember t (some z) a f) y g w :=
  follows_recognises hn hlive ht h

/-! ## Members on their own structure -/

section Call

variable (hn : w.store.get? z = some n) (hlive : n.live = true)
  (hr : n.entity.role = .sharedStructure) (ha : n.entity.isAccountable = true)
include hn hlive hr ha

theorem follows_call_addRef : Follows (call z Layout.addRef (some z)) (retain z)
    (fun _ => Reply.nothing) w := by
  have hset {t : Structure} (h : t.counts = true) : t.isSet Layout.addRef = true :=
    Structure.isSet_of_counts h (Or.inl rfl)
  have hretain := (follows_refl (retain z) w).map fun _ => Reply.nothing
  apply Follows.entity_bind hn hlive
  obtain ⟨name, e, live⟩ := n
  cases e with
  | sharedWrapper v =>
    apply Follows.ofOption_bind rfl
    rw [if_pos (hset ha)]
    have hmember := follows_baseMember (a := ()) hn hlive rfl (follows_refl (retain z) w)
    exact (hmember.map fun _ => Reply.nothing).contained
  | sharedFar f =>
    refine Follows.ofOption_bind rfl ?_
    rw [if_pos (hset ha)]
    exact Follows.ofOption_bind rfl (Follows.entity_bind hn hlive hretain)
  | _ => cases hr

theorem follows_call_release : Follows (call z Layout.release (some z)) (release z)
    Reply.number w := by
  have hset {t : Structure} (h : t.counts = true) : t.isSet Layout.release = true :=
    Structure.isSet_of_counts h (Or.inr rfl)
  have hrelease := (follows_refl (release z) w).map Reply.number
  refine Follows.entity_bind hn hlive ?_
  obtain ⟨name, e, live⟩ := n
  cases e with
  | sharedWrapper v =>
    refine Follows.ofOption_bind rfl ?_
    rw [if_pos (hset ha)]
    have hmember := follows_baseMember (a := 0) hn hlive rfl (follows_refl (release z) w)
    exact (hmember.map Reply.number).contained
  | sharedFar f =>
    refine Follows.ofOption_bind rfl ?_
    rw [if_pos (hset ha)]
    exact Follows.ofOption_bind rfl (Follows.entity_bind hn hlive hrelease)
  | _ => cases hr

/-- The members of the structure of a proxy are called through the proxy. -/
theorem follows_through {position : Nat} (absent : α) {act : Act α}
    (hp : position = Layout.addRef ∨ position = Layout.release) (h : Follows act y g w) :
    Follows (through z position absent act) y g w := by
  obtain ⟨t, ht⟩ := Entity.struct?_of_role hr
  have hset : t.isSet position = true := by
    refine Structure.isSet_of_counts ?_ hp
    obtain ⟨name, e, live⟩ := n
    cases e with
    | sharedWrapper v => cases ht; exact ha
    | sharedFar f => cases ht; exact ha
    | _ => cases hr
  unfold through struct
  rw [bind_assoc]
  refine Follows.entity_bind hn hlive (Follows.ofOption_bind ht ?_)
  rw [if_pos hset]
  exact h.contained

end Call

end ObjectBoundary.Act
