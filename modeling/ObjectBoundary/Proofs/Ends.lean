import ObjectBoundary.Act.Entities
import Mathlib.Order.Defs.Unbundled

/-!
# How acts end

Statements about acts are made through what holds when they end. Of an act that aborts or is
refused nothing is said: the process is gone in the one case, and in the other the act had no
right to be there.

* `Act.Ends`: what holds once an act is done, and what holds if it unwinds.
* `Act.Does`: the act is done, whatever the phase.
* `Act.Follows`: the act is done where another one is, and in the same world.
* `Act.Respects`: how the world after an act is related to the one before, however it ends.
-/

namespace ObjectBoundary

variable {α β : Type}

/-! ## Postconditions -/

/-- An outcome that brings a value or a failure of a certain kind, or neither. -/
def Outcome.Meets (P : α → Prop) (U : Failure → Prop) : Outcome α → Prop
  | .done a => P a
  | .unwound failure => U failure
  | _ => True

namespace Act

/-- Where the act is done, `P` holds of its value and the world after it; where it unwinds, `U`
holds of the failure and the world after it. -/
def Ends (x : Act α) (w : World) (P : α → World → Prop) (U : Failure → World → Prop) : Prop :=
  ∀ phase, (x phase w).1.Meets (fun a => P a (x phase w).2) fun e => U e (x phase w).2

variable {x : Act α} {f : α → Act β} {w : World} {P P' : α → World → Prop} {Q : β → World → Prop}
  {U V : Failure → World → Prop}

theorem ends_of_done (h : Ends x w P U) {phase : Phase} {a : α} {w' : World}
    (hx : x phase w = (.done a, w')) : P a w' := by
  have := h phase
  rw [hx] at this
  exact this

theorem ends_of_unwound (h : Ends x w P U) {phase : Phase} {failure : Failure} {w' : World}
    (hx : x phase w = (.unwound failure, w')) : U failure w' := by
  have := h phase
  rw [hx] at this
  exact this

theorem ends_mono (h : Ends x w P U) (hP : ∀ a w', P a w' → P' a w')
    (hU : ∀ e w', U e w' → V e w') : Ends x w P' V := by
  intro phase
  have := h phase
  generalize x phase w = r at this ⊢
  rcases r with ⟨_ | _ | _ | _, w'⟩
  · exact hP _ _ this
  · exact hU _ _ this
  · trivial
  · trivial

theorem ends_true : Ends x w (fun _ _ => True) fun _ _ => True := by
  intro phase
  generalize x phase w = r
  rcases r with ⟨_ | _ | _ | _, w'⟩ <;> trivial

theorem ends_pure {a : α} (h : P a w) : Ends (pure a) w P U := fun _ => h

theorem ends_bind (hx : Ends x w P U) (hf : ∀ a w', P a w' → Ends (f a) w' Q U) :
    Ends (x >>= f) w Q U := by
  intro phase
  have := hx phase
  rw [bind_apply]
  generalize x phase w = r at this ⊢
  rcases r with ⟨_ | _ | _ | _, w'⟩
  · exact hf _ _ this phase
  · exact this
  · trivial
  · trivial

theorem ends_discard (h : Ends x w P U) :
    Ends (discard x) w (fun _ w' => ∃ a, P a w') U :=
  ends_bind h fun a _ ha => ends_pure ⟨a, ha⟩

theorem ends_refuse {m : Misuse} : Ends (refuse m : Act α) w P U := fun _ => trivial

theorem ends_abort : Ends (abort : Act α) w P U := fun _ => trivial

theorem ends_get_bind {f : World → Act β} (h : Ends (f w) w Q U) : Ends (get >>= f) w Q U := h

theorem ends_modify {g : World → World} {P : Unit → World → Prop} (h : P () (g w)) :
    Ends (modify g) w P U := fun _ => h

theorem ends_modify_bind {g : World → World} {f : Unit → Act β} (h : Ends (f ()) (g w) Q U) :
    Ends (modify g >>= f) w Q U := h

theorem ofOption_some_bind (m : Misuse) (a : α) (f : α → Act β) :
    (ofOption m (some a) >>= f) = f a := rfl

theorem ends_ofOption {m : Misuse} {o : Option α} (h : ∀ a, o = some a → P a w) :
    Ends (ofOption m o) w P U := by
  cases o with
  | none => exact ends_refuse
  | some a => exact ends_pure (h a rfl)

theorem ends_ofOption_bind {m : Misuse} {o : Option α} {a : α} (ho : o = some a)
    (hf : Ends (f a) w Q U) : Ends (ofOption m o >>= f) w Q U := by
  subst ho
  exact hf

theorem ends_entity {y : Id} {P : Entity → World → Prop}
    (h : ∀ n, w.store.get? y = some n → n.live = true → P n.entity w) :
    Ends (entity y) w P U := by
  apply ends_get_bind
  split
  · exact ends_refuse
  · rename_i n hn
    split
    · rename_i hlive
      exact ends_pure (h n hn hlive)
    · exact ends_refuse

/-- An act that goes on with an entity has it at hand. -/
theorem ends_entity_bind {y : Id} {f : Entity → Act β}
    (h : ∀ n, w.store.get? y = some n → n.live = true → Ends (f n.entity) w Q U) :
    Ends (entity y >>= f) w Q U := by
  refine ends_bind (P := fun e w' => w' = w ∧ Ends (f e) w Q U)
    (ends_entity fun n hn hlive => ⟨rfl, h n hn hlive⟩) ?_
  intro e _ hpost
  obtain ⟨rfl, he⟩ := hpost
  exact he

theorem ends_contained (hx : Ends x w P V) : Ends (contained x) w P U := by
  intro phase
  have := hx phase
  unfold contained
  generalize x phase w = r at this ⊢
  rcases r with ⟨_ | _ | _ | _, w'⟩
  · exact this
  · trivial
  · trivial
  · trivial

/-- A function member is called if it is set, and skipped otherwise. -/
theorem ends_through {s : Id} {position : Nat} {absent : α}
    (hset : ∀ n t, w.store.get? s = some n → n.live = true → n.entity.struct? = some t →
      t.isSet position = true → Ends x w P V)
    (hnull : ∀ n t, w.store.get? s = some n → n.live = true → n.entity.struct? = some t →
      t.isSet position = false → P absent w) :
    Ends (through s position absent x) w P U := by
  unfold through struct
  rw [bind_assoc]
  apply ends_entity_bind
  intro n hn hlive
  refine ends_bind (P := fun t w' => w' = w ∧ n.entity.struct? = some t)
    (ends_ofOption fun t ht => ⟨rfl, ht⟩) ?_
  intro t _ hpost
  obtain ⟨rfl, ht⟩ := hpost
  split
  · rename_i h
    exact ends_contained (hset n t hn hlive ht h)
  · rename_i h
    exact ends_pure (hnull n t hn hlive ht (Bool.eq_false_iff.mpr h))

/-- Where an act unwinds, its clean-up decides what holds in the end. -/
theorem ends_onUnwind {c : Act Unit} (hx : Ends x w P V)
    (hc : ∀ e w', V e w' → Ends c w' (fun _ w'' => U e w'') fun _ _ => True) :
    Ends (onUnwind x c) w P U := by
  intro phase
  have := hx phase
  unfold onUnwind
  rcases hr : x phase w with ⟨_ | e | _ | _, w'⟩
  · rw [hr] at this
    exact this
  · rw [hr] at this
    have hclean := hc e w' this .unwinding
    dsimp only
    unfold cleanUp
    generalize c .unwinding w' = r at hclean ⊢
    rcases r with ⟨_ | _ | _ | _, w''⟩
    · exact hclean
    · trivial
    · trivial
    · trivial
  · trivial
  · trivial

theorem ends_ensuring {c : Act Unit} (hx : Ends x w P V)
    (hu : ∀ e w', V e w' → Ends c w' (fun _ w'' => U e w'') fun _ _ => True)
    (hd : ∀ a w', P a w' → Ends c w' (fun _ w'' => P' a w'') U) :
    Ends (ensuring x c) w P' U := by
  apply ends_bind (ends_onUnwind hx hu)
  intro a w' ha
  exact ends_bind (hd a w' ha) fun _ _ h => ends_pure h

/-! ## Acts that are done -/

/-- The act is done, whatever the phase. -/
def Does (x : Act α) (w : World) : Prop := ∀ phase, ∃ a w', x phase w = (.done a, w')

theorem does_pure (a : α) (w : World) : Does (pure a) w := fun _ => ⟨a, w, rfl⟩

theorem does_bind (hx : Does x w) (hp : Ends x w P U) (hf : ∀ a w', P a w' → Does (f a) w') :
    Does (x >>= f) w := by
  intro phase
  obtain ⟨a, w', ha⟩ := hx phase
  obtain ⟨b, w'', hb⟩ := hf a w' (ends_of_done hp ha) phase
  exact ⟨b, w'', by rw [bind_apply, ha]; exact hb⟩

theorem does_get_bind {f : World → Act β} (h : Does (f w) w) : Does (get >>= f) w := h

theorem does_modify (g : World → World) (w : World) : Does (modify g) w := fun _ => ⟨_, _, rfl⟩

theorem does_modify_bind {g : World → World} {f : Unit → Act β} (h : Does (f ()) (g w)) :
    Does (modify g >>= f) w := h

theorem entity_apply {y : Id} {n : Node} (hn : w.store.get? y = some n) (hlive : n.live = true)
    (phase : Phase) : entity y phase w = (.done n.entity, w) := by
  simp only [entity, bind_apply, get, hn, hlive]
  rfl

end Act

/-! ## Acts that follow others -/

namespace Act

/-- The act is done exactly where another one is. It leads to the same world, and its value is
made from that of the other. -/
def Follows (x : Act α) (y : Act β) (g : β → α) (w : World) : Prop :=
  ∀ phase, (∀ b w', y phase w = (.done b, w') → x phase w = (.done (g b), w')) ∧
    ∀ a w', x phase w = (.done a, w') → ∃ b, y phase w = (.done b, w') ∧ a = g b

variable {γ : Type} {x x' : Act α} {y : Act β} {g : β → α} {w : World} {P : β → World → Prop}
  {U : Failure → World → Prop}

theorem Follows.does (h : Follows x y g w) (hy : Does y w) : Does x w := by
  intro phase
  obtain ⟨b, w', hb⟩ := hy phase
  exact ⟨g b, w', (h phase).1 b w' hb⟩

theorem Follows.done (h : Follows x y g w) (hy : Ends y w P U) {phase : Phase} {a : α}
    {w' : World} (hx : x phase w = (.done a, w')) : ∃ b, a = g b ∧ P b w' := by
  obtain ⟨b, hb, rfl⟩ := (h phase).2 a w' hx
  exact ⟨b, rfl, ends_of_done hy hb⟩

theorem follows_refl (y : Act β) (w : World) : Follows y y id w :=
  fun _ => ⟨fun _ _ h => h, fun a _ h => ⟨a, h, rfl⟩⟩

theorem Follows.map (h : Follows x y g w) (f : α → γ) :
    Follows (x >>= fun a => pure (f a)) y (f ∘ g) w := by
  intro phase
  obtain ⟨hdone, hback⟩ := h phase
  rw [bind_apply]
  refine ⟨fun b w' hb => by rw [hdone b w' hb]; rfl, ?_⟩
  intro c w' hc
  rcases hx : x phase w with ⟨a | _ | _ | _, w''⟩
  · rw [hx] at hc
    cases hc
    obtain ⟨b, hb, rfl⟩ := hback a w' hx
    exact ⟨b, hb, rfl⟩
  all_goals
    rw [hx] at hc
    cases hc

theorem Follows.contained (h : Follows x y g w) : Follows (contained x) y g w := by
  intro phase
  obtain ⟨hdone, hback⟩ := h phase
  unfold Act.contained
  refine ⟨fun b w' hb => by rw [hdone b w' hb], ?_⟩
  intro c w' hc
  rcases hx : x phase w with ⟨a | _ | _ | _, w''⟩
  · rw [hx] at hc
    cases hc
    exact hback c w' hx
  all_goals
    rw [hx] at hc
    cases hc

/-- Only what an act does in this world counts. -/
theorem Follows.congr (h : Follows x y g w) (heq : ∀ phase, x' phase w = x phase w) :
    Follows x' y g w := by
  intro phase
  rw [heq phase]
  exact h phase

theorem Follows.entity_bind {z : Id} {f : Entity → Act α} {n : Node}
    (hn : w.store.get? z = some n) (hlive : n.live = true) (h : Follows (f n.entity) y g w) :
    Follows (entity z >>= f) y g w :=
  h.congr fun phase => by rw [bind_apply, entity_apply hn hlive]

theorem Follows.ofOption_bind {m : Misuse} {o : Option γ} {f : γ → Act α} {c : γ}
    (ho : o = some c) (h : Follows (f c) y g w) : Follows (ofOption m o >>= f) y g w := by
  subst ho
  exact h

end Act

/-! ## What an act keeps -/

namespace Act

/-- However the act ends, the world after it is related to the one before. -/
def Respects (R : World → World → Prop) (x : Act α) (w : World) : Prop :=
  ∀ phase, R w (x phase w).2

variable {R R' : World → World → Prop} {x : Act α} {f : α → Act β} {w : World}

theorem respects_mono (h : Respects R x w) (hR : ∀ w', R w w' → R' w w') : Respects R' x w :=
  fun phase => hR _ (h phase)

theorem ends_of_respects (h : Respects R x w) :
    Ends x w (fun _ w' => R w w') fun _ w' => R w w' := by
  intro phase
  have := h phase
  generalize x phase w = r at this ⊢
  rcases r with ⟨_ | _ | _ | _, w'⟩
  · exact this
  · exact this
  · trivial
  · trivial

/-- What an act ends with and what it keeps hold together. -/
theorem ends_and_respects {P : α → World → Prop} {U : Failure → World → Prop} (h : Ends x w P U)
    (hx : Respects R x w) :
    Ends x w (fun a w' => P a w' ∧ R w w') fun e w' => U e w' ∧ R w w' := by
  intro phase
  have := h phase
  have := hx phase
  generalize x phase w = r at *
  rcases r with ⟨_ | _ | _ | _, w'⟩
  · exact ⟨‹_›, ‹_›⟩
  · exact ⟨‹_›, ‹_›⟩
  · trivial
  · trivial

theorem respects_modify {g : World → World} (h : R w (g w)) : Respects R (modify g) w :=
  fun _ => h

theorem respects_get_bind {f : World → Act β} (h : Respects R (f w) w) :
    Respects R (get >>= f) w := h

theorem respects_contained (hx : Respects R x w) : Respects R (contained x) w := by
  intro phase
  have := hx phase
  unfold contained
  generalize x phase w = r at this ⊢
  rcases r with ⟨_ | _ | _ | _, w'⟩ <;> exact this

theorem respects_cleanUp (failure : Failure) {c : Act Unit} (hc : Respects R c w) :
    Respects R (cleanUp failure c : Act α) w := by
  intro phase
  have := hc .unwinding
  unfold cleanUp
  generalize c .unwinding w = r at this ⊢
  rcases r with ⟨_ | _ | _ | _, w'⟩ <;> exact this

variable [IsPreorder World R]

theorem respects_pure (a : α) : Respects R (pure a) w := fun _ => refl w

theorem respects_bind (hx : Respects R x w) (hf : ∀ a w', R w w' → Respects R (f a) w') :
    Respects R (x >>= f) w := by
  intro phase
  have := hx phase
  rw [bind_apply]
  generalize x phase w = r at this ⊢
  rcases r with ⟨_ | _ | _ | _, w'⟩
  · exact IsTrans.trans _ _ _ this (hf _ _ this phase)
  · exact this
  · exact this
  · exact this

theorem respects_get : Respects R get w := fun _ => refl w

theorem respects_refuse (m : Misuse) : Respects R (refuse m : Act α) w := fun _ => refl w

theorem respects_abort : Respects R (abort : Act α) w := fun _ => refl w

theorem respects_unwind (failure : Failure) : Respects R (unwind failure) w := by
  intro phase
  cases phase <;> exact refl w

theorem respects_ofOption (m : Misuse) (o : Option α) : Respects R (ofOption m o) w := by
  cases o
  · exact respects_refuse m
  · exact respects_pure _

/-- Whatever is made of a result leads nowhere else. -/
theorem respects_map {f : α → β} (hx : Respects R x w) :
    Respects R (x >>= fun a => pure (f a)) w := respects_bind hx fun _ _ _ => respects_pure _

theorem respects_discard (hx : Respects R x w) : Respects R (discard x) w := respects_map hx

theorem respects_onUnwind {c : Act Unit} (hx : Respects R x w)
    (hc : ∀ w', R w w' → Respects R c w') : Respects R (onUnwind x c) w := by
  intro phase
  have := hx phase
  unfold onUnwind
  generalize x phase w = r at this ⊢
  rcases r with ⟨_ | e | _ | _, w'⟩
  · exact this
  · have hclean : Respects R (cleanUp e c : Act α) w' := respects_cleanUp e (hc w' this)
    exact IsTrans.trans _ _ _ this (hclean phase)
  · exact this
  · exact this

theorem respects_ensuring {c : Act Unit} (hx : Respects R x w)
    (hc : ∀ w', R w w' → Respects R c w') : Respects R (ensuring x c) w :=
  respects_bind (respects_onUnwind hx hc) fun _ w' h =>
    respects_bind (hc w' h) fun _ _ _ => respects_pure _

theorem respects_entity_bind {y : Id} {f : Entity → Act β}
    (hf : ∀ n, w.store.get? y = some n → n.live = true → Respects R (f n.entity) w) :
    Respects R (entity y >>= f) w := by
  intro phase
  cases hn : w.store.get? y with
  | none =>
    simp only [entity, bind_apply, get, hn]
    exact refl w
  | some n =>
    cases hlive : n.live with
    | false =>
      simp only [entity, bind_apply, get, hn, hlive]
      exact refl w
    | true =>
      have := hf n hn hlive phase
      simp only [entity, bind_apply, get, hn, hlive]
      exact this

theorem respects_entity (y : Id) : Respects R (entity y) w := by
  have := respects_entity_bind (R := R) (w := w) (y := y) (f := pure)
    fun n _ _ => respects_pure n.entity
  rwa [bind_pure] at this

theorem respects_chain (y : Id) : Respects R (chain y) w :=
  respects_bind respects_get fun _ _ _ => respects_pure _

theorem respects_struct (y : Id) : Respects R (struct y) w :=
  respects_bind (respects_entity y) fun _ _ _ => respects_ofOption _ _

theorem respects_through {s : Id} {position : Nat} {absent : α}
    (hx : ∀ w', R w w' → Respects R x w') : Respects R (through s position absent x) w := by
  refine respects_bind (respects_struct s) fun t w' h => ?_
  split
  · exact respects_contained (hx w' h)
  · exact respects_pure _

theorem respects_calling {t : Structure} {position : Nat} (hx : Respects R x w) :
    Respects R (calling t position x) w := by
  unfold calling
  split
  · exact hx
  · exact respects_refuse _

theorem respects_throughOffered {s : Id} {position : Nat} {absent : α}
    (hx : ∀ w', R w w' → Respects R x w') :
    Respects R (throughOffered s position absent x) w := by
  refine respects_bind (respects_struct s) fun t w' h => ?_
  split
  · exact respects_calling (respects_contained (hx w' h))
  · exact respects_pure _

end Act

end ObjectBoundary
