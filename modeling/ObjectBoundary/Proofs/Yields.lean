import ObjectBoundary.Act.Recognition
import ObjectBoundary.Proofs.Quiet

/-!
# Acts that yield a value

Of an act that only looks it can be said which value it is done with, and that it is done, in one
statement.

* `Act.Yields`: the act is done with a certain value and leaves all entities alone.
* `yields_requireRunning`: the check of the start of shutdown where it cannot unwind.
* `yields_recognises`, `yields_objectOf`: what a class finds behind a structure of its own.
-/

namespace ObjectBoundary.Act

variable {α β : Type} {w : World} {a : α} {b : β}

/-- Whatever the phase, the act is done with a certain value and nothing has happened that
concerns an entity. -/
def Yields (x : Act α) (w : World) (a : α) : Prop :=
  ∀ phase, ∃ w', x phase w = (.done a, w') ∧ w.Quiet w'

/-! ## Composition -/

theorem yields_pure (a : α) (w : World) : Yields (pure a) w a :=
  fun _ => ⟨w, rfl, refl_of World.Quiet w⟩

theorem yields_bind {x : Act α} {f : α → Act β} (hx : Yields x w a)
    (hf : ∀ w', w.Quiet w' → Yields (f a) w' b) : Yields (x >>= f) w b := by
  intro phase
  obtain ⟨w', hw', hq⟩ := hx phase
  obtain ⟨w'', hw'', hq'⟩ := hf w' hq phase
  exact ⟨w'', by rw [bind_apply, hw']; exact hw'', trans_of World.Quiet hq hq'⟩

theorem yields_map {x : Act α} (hx : Yields x w a) (f : α → β) :
    Yields (x >>= fun a => pure (f a)) w (f a) :=
  yields_bind hx fun w' _ => yields_pure (f a) w'

theorem yields_get_bind {f : World → Act β} (h : Yields (f w) w b) : Yields (get >>= f) w b := h

theorem yields_ofOption_bind {m : Misuse} {o : Option α} {f : α → Act β} (ho : o = some a)
    (hf : Yields (f a) w b) : Yields (ofOption m o >>= f) w b := by
  subst ho
  exact hf

theorem yields_entity_bind {x : Id} {n : Node} {f : Entity → Act β} (hn : w.store.get? x = some n)
    (hlive : n.live = true) (hf : Yields (f n.entity) w b) : Yields (entity x >>= f) w b := by
  intro phase
  rw [bind_apply, entity_apply hn hlive]
  exact hf phase

theorem yields_contained {x : Act α} (hx : Yields x w a) : Yields (contained x) w a := by
  intro phase
  obtain ⟨w', hw', hq⟩ := hx phase
  exact ⟨w', by rw [contained, hw'], hq⟩

/-- A function member that is set is called. -/
theorem yields_through {s : Id} {position : Nat} {absent : α} {x : Act α} {n : Node}
    {t : Structure} (hn : w.store.get? s = some n) (hlive : n.live = true)
    (ht : n.entity.struct? = some t) (hset : t.isSet position = true) (hx : Yields x w a) :
    Yields (through s position absent x) w a := by
  unfold through struct
  rw [bind_assoc]
  refine yields_entity_bind hn hlive (yields_ofOption_bind ht ?_)
  rw [if_pos hset]
  exact yields_contained hx

/-- An act that is done and only looks. -/
theorem yields_of_does {x : Act Unit} (hd : Does x w) (hr : Respects World.Quiet x w) :
    Yields x w () := by
  intro phase
  obtain ⟨_, w', hw'⟩ := hd phase
  have hq := hr phase
  rw [hw'] at hq
  exact ⟨w', hw', hq⟩

/-! ## Checks that do not fail -/

theorem yields_requireRunning (h : w.IsTolerant) : Yields requireRunning w () :=
  yields_of_does (does_requireRunning h) respects_requireRunning

theorem yields_running_bind {f : Unit → Act β} (h : w.IsTolerant)
    (hf : ∀ w', w.Quiet w' → Yields (f ()) w' b) : Yields (requireRunning >>= f) w b :=
  yields_bind (yields_requireRunning h) hf

/-! ## Recognising wrappers -/

section Recognition

variable {s : Id} {n : Node} {t : Tag} (hn : w.store.get? s = some n) (hlive : n.live = true)
  (ht : n.entity.wrapperTag? = some t)
include hn hlive ht

theorem yields_wrapperTag : Yields (wrapperTag s) w t :=
  yields_entity_bind hn hlive (by rw [ht]; exact yields_pure t w)

theorem yields_recognises : Yields (recognises t s) w true := by
  refine yields_bind (yields_wrapperTag hn hlive ht) fun w' _ => ?_
  rw [beq_self_eq_true, require_true, pure_bind]
  exact yields_pure true w'

theorem yields_objectOf (h : w.IsTolerant) : Yields (objectOf t s) w n.entity.below? := by
  refine yields_running_bind h fun w₁ h₁ => ?_
  rw [← h₁.store] at hn
  refine yields_bind (yields_recognises hn hlive ht) fun w₂ h₂ => ?_
  rw [← h₂.store] at hn
  exact yields_entity_bind hn hlive (yields_pure _ w₂)

end Recognition

end ObjectBoundary.Act
