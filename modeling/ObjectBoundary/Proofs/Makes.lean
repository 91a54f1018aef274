import ObjectBoundary.Proofs.Yields

/-!
# Acts of known effect

Of some acts it can be said which value they are done with and which entities they leave behind,
and that they are done.

* `World.Becomes`: the entities have become others, and checks of shutdown fare as before.
* `Act.Makes`: the act is done with a certain value and leaves certain entities.
* `makes_bind` and its like: how such acts are composed.
-/

namespace ObjectBoundary

/-- The entities have become others. What decides the checks of the start of shutdown has not
changed. -/
structure World.Becomes (w w' : World) (st : Store) : Prop where
  store : w'.store = st
  isShutdown : w'.isShutdown = w.isShutdown
  inForce : w'.inForce = w.inForce

namespace World

variable {w w₁ w₂ : World} {st st' : Store}

theorem Becomes.trans (h : w.Becomes w₁ st) (h' : w₁.Becomes w₂ st') : w.Becomes w₂ st' :=
  ⟨h'.store, h'.isShutdown.trans h.isShutdown, h'.inForce.trans h.inForce⟩

theorem Becomes.isTolerant (h : w.Becomes w₁ st) (ht : w.IsTolerant) : w₁.IsTolerant := by
  intro hd
  rw [h.inForce]
  exact ht (h.isShutdown ▸ hd)

theorem Quiet.becomes (h : w.Quiet w₁) : w.Becomes w₁ w.store :=
  ⟨h.store, h.isShutdown, h.inForce⟩

end World

namespace Act

variable {α β : Type} {x : Act α} {w : World} {a : α} {b : β} {st st' : Store}

/-- Whatever the phase, the act is done with a certain value and leaves certain entities. -/
def Makes (x : Act α) (w : World) (a : α) (st : Store) : Prop :=
  ∀ phase, ∃ w', x phase w = (.done a, w') ∧ w.Becomes w' st

/-! ## Composition -/

theorem makes_of_yields (h : Yields x w a) : Makes x w a w.store := by
  intro phase
  obtain ⟨w', hw', hq⟩ := h phase
  exact ⟨w', hw', hq.becomes⟩

/-- An act that is done leaves what it ends with. -/
theorem makes_of_does {U : Failure → World → Prop} (hd : Does x w)
    (he : Ends x w (fun r w' => r = a ∧ w.Becomes w' st) U) : Makes x w a st := by
  intro phase
  obtain ⟨r, w', hw'⟩ := hd phase
  obtain ⟨rfl, h⟩ := ends_of_done he hw'
  exact ⟨w', hw', h⟩

theorem makes_pure (a : α) (w : World) : Makes (pure a) w a w.store :=
  makes_of_yields (yields_pure a w)

theorem makes_bind {f : α → Act β} (hx : Makes x w a st)
    (hf : ∀ w', w.Becomes w' st → Makes (f a) w' b st') : Makes (x >>= f) w b st' := by
  intro phase
  obtain ⟨w', hw', h⟩ := hx phase
  obtain ⟨w'', hw'', h'⟩ := hf w' h phase
  exact ⟨w'', by rw [bind_apply, hw']; exact hw'', h.trans h'⟩

theorem makes_map (hx : Makes x w a st) (f : α → β) :
    Makes (x >>= fun a => pure (f a)) w (f a) st :=
  makes_bind hx fun w' h => h.store ▸ makes_pure (f a) w'

theorem makes_discard (hx : Makes x w a st) : Makes (discard x) w () st :=
  makes_map hx fun _ => ()

/-- An act that goes on after one that only looks. -/
theorem makes_yields_bind {f : α → Act β} (hx : Yields x w a)
    (hf : ∀ w', w.Quiet w' → Makes (f a) w' b st) : Makes (x >>= f) w b st := by
  intro phase
  obtain ⟨w', hw', hq⟩ := hx phase
  obtain ⟨w'', hw'', h⟩ := hf w' hq phase
  exact ⟨w'', by rw [bind_apply, hw']; exact hw'', hq.becomes.trans h⟩

theorem makes_entity_bind {y : Id} {n : Node} {f : Entity → Act β} (hn : w.store.get? y = some n)
    (hlive : n.live = true) (hf : Makes (f n.entity) w b st) : Makes (entity y >>= f) w b st := by
  intro phase
  rw [bind_apply, entity_apply hn hlive]
  exact hf phase

/-- A crossing is logged in the end. -/
theorem makes_crossed {c : Crossing} {t : Tag} (h : w.store = st) :
    Makes (emit (.crossed c t) >>= fun _ => pure a) w a st :=
  h ▸ makes_of_yields
    (yields_map (yields_of_does (does_modify _ _) (respects_crossed c t)) fun _ => a)

theorem makes_contained (hx : Makes x w a st) : Makes (contained x) w a st := by
  intro phase
  obtain ⟨w', hw', h⟩ := hx phase
  exact ⟨w', by rw [contained, hw'], h⟩

/-- A function member that is set is called. -/
theorem makes_through {s : Id} {position : Nat} {absent : α} {n : Node} {t : Structure}
    (hn : w.store.get? s = some n) (hlive : n.live = true) (ht : n.entity.struct? = some t)
    (hset : t.isSet position = true) (hx : Makes x w a st) :
    Makes (through s position absent x) w a st := by
  unfold through struct
  rw [bind_assoc]
  refine makes_entity_bind hn hlive ?_
  rw [ht]
  show Makes (if t.isSet position = true then contained x else pure absent) w a st
  rw [if_pos hset]
  exact makes_contained hx

/-- What is done leaves nothing to be cleaned up. -/
theorem makes_onUnwind {c : Act Unit} (hx : Makes x w a st) : Makes (onUnwind x c) w a st := by
  intro phase
  obtain ⟨w', hw', h⟩ := hx phase
  exact ⟨w', by rw [onUnwind, hw'], h⟩

theorem makes_ensuring {c : Act Unit} (hx : Makes x w a st)
    (hc : ∀ w', w.Becomes w' st → Makes c w' () st') : Makes (ensuring x c) w a st' :=
  makes_bind (makes_onUnwind hx) fun w' h =>
    makes_bind (hc w' h) fun w'' h' => h'.store ▸ makes_pure a w''

end Act

end ObjectBoundary
