import ObjectBoundary.Proofs.Acts.Supervised
import ObjectBoundary.Proofs.Acts.Twins

/-!
# Two runs of an act under supervision

What an act under supervision does is decided by the environment and the entities, as long as no
check of the start of shutdown is made and no check fails. So of worlds that differ in nothing else,
only these checks have to be looked at to tell whether the runs of such an act stay together.

* `Alongside`, `Accords`: two runs stay together, or they may have parted.
* `Act.Accordance`: what has to be known of two worlds.
* `Supervised.accords`: the runs of all acts under supervision accord then.
-/

namespace ObjectBoundary

variable {α β : Type} {R A : World → World → Prop}

/-! ## Two runs -/

/-- Two runs end alike and in related worlds. -/
structure Alongside (R : World → World → Prop) (r r' : Outcome α × World) : Prop where
  outcome : r.1 = r'.1
  world : R r.2 r'.2

theorem Alongside.map {r r' : Outcome α × World} (h : Alongside R r r')
    (g : Outcome α → Outcome β) : Alongside R (g r.1, r.2) (g r'.1, r'.2) :=
  ⟨congrArg g h.outcome, h.world⟩

/-- Two runs end alike and in related worlds, or they have parted on the way. -/
inductive Accords (R A : World → World → Prop) : Outcome α × World → Outcome α × World → Prop
  | together {o : Outcome α} {w w' : World} : R w w' → Accords R A (o, w) (o, w')
  | apart {r r' : Outcome α × World} : A r.2 r'.2 → Accords R A r r'

namespace Accords

variable {r r' : Outcome α × World}

theorem map (h : Accords R A r r') (g : Outcome α → Outcome β) :
    Accords R A (g r.1, r.2) (g r'.1, r'.2) := by
  cases h with
  | together hw => exact .together hw
  | apart h => exact .apart h

theorem of_alongside (h : Alongside R r r') : Accords R A r r' := by
  obtain ⟨o, w⟩ := r
  obtain ⟨o', w'⟩ := r'
  obtain ⟨rfl, hw⟩ := h
  exact .together hw

/-- Runs that do not part stay together. -/
theorem alongside (h : Accords R A r r') (hnot : ¬ A r.2 r'.2) : Alongside R r r' := by
  cases h with
  | together hw => exact ⟨rfl, hw⟩
  | apart h => exact absurd h hnot

end Accords

namespace Act

variable {w w' : World} {ph : Phase} {k : Known}

theorem alongside_bind {x : Act α} {f : α → Act β} (h : Alongside R (x ph w) (x ph w'))
    (hf : ∀ a w₁ w₁', R w₁ w₁' → Alongside R (f a ph w₁) (f a ph w₁')) :
    Alongside R ((x >>= f) ph w) ((x >>= f) ph w') := by
  rw [bind_apply, bind_apply]
  generalize x ph w = r at h ⊢
  generalize x ph w' = r' at h ⊢
  obtain ⟨o, w₁⟩ := r
  obtain ⟨o', w₁'⟩ := r'
  obtain ⟨rfl, hworld⟩ := h
  cases o with
  | done a => exact hf a w₁ w₁' hworld
  | _ => exact ⟨rfl, hworld⟩

/-! ## What has to be known of two worlds -/

/-- Worlds of a relation run alike until they part for good. -/
structure Accordance (R A : World → World → Prop) : Prop where
  environment {w w' : World} : R w w' → w'.environment = w.environment
  store {w w' : World} : R w w' → w'.store = w.store
  replace {w w' : World} : R w w' → ∀ st, R { w with store := st } { w' with store := st }
  emit {w w' : World} : R w w' → ∀ e : Event, e.isComplaint = false →
    R { w with log := w.log ++ [e] } { w' with log := w'.log ++ [e] }
  apart {w w' v v' : World} : A w w' → w.Onward v → w'.Onward v' → A v v'
  check {w w' : World} : R w w' → ∀ (failure : Failure) (ph : Phase),
    Accords R A (check failure ph w) (check failure ph w')
  running {w w' : World} : R w w' → ∀ ph : Phase,
    Accords R A (requireRunning ph w) (requireRunning ph w')

namespace Accordance

variable (hr : Accordance R A)
include hr

theorem modify (h : R w w') (x : Id) (f : Node → Node) :
    R { w with store := w.store.modify x f } { w' with store := w'.store.modify x f } := by
  rw [hr.store h]
  exact hr.replace h _

/-- What has parted stays apart, and what is together goes on with the same. -/
theorem bind {x : Act α} {f : α → Act β} (h : Accords R A (x ph w) (x ph w'))
    (hf : ∀ a w₁ w₁', R w₁ w₁' → Accords R A (f a ph w₁) (f a ph w₁'))
    (ho : ∀ a w, Respects World.Onward (f a) w) :
    Accords R A ((x >>= f) ph w) ((x >>= f) ph w') := by
  have hl := onward_bind (x := x) ho ph w
  have hl' := onward_bind (x := x) ho ph w'
  rw [bind_apply, bind_apply] at *
  generalize x ph w = r at h hl ⊢
  generalize x ph w' = r' at h hl' ⊢
  cases h with
  | @together o w₁ w₁' hw =>
    cases o with
    | done a => exact hf a w₁ w₁' hw
    | _ => exact .together hw
  | apart h => exact .apart (hr.apart h hl hl')

theorem entity_bind {x : Id} {f : Entity → Act β} (h : R w w')
    (hf : ∀ e, Accords R A (f e ph w) (f e ph w')) :
    Accords R A ((entity x >>= f) ph w) ((entity x >>= f) ph w') := by
  have hget : w'.store.get? x = w.store.get? x := by rw [hr.store h]
  cases hn : w.store.get? x with
  | none =>
    simp only [entity, bind_apply, get, hget, hn]
    exact .together h
  | some n =>
    cases hlive : n.live with
    | false =>
      simp only [entity, bind_apply, get, hget, hn, hlive]
      exact .together h
    | true =>
      simp only [bind_apply, entity_apply hn hlive, entity_apply (hget.trans hn) hlive]
      exact hf n.entity

theorem raise (h : R w w') (x : Id) : Accords R A (Act.raise x ph w) (Act.raise x ph w') := by
  refine hr.entity_bind h fun e => ?_
  cases e.count? with
  | none => exact .together h
  | some n =>
    have hput := hr.modify h x fun m => { m with entity := e.withCount n.succ }
    have hraised := hr.emit hput (.raised x) rfl
    cases hfull : n.isFull <;> simp only [ofOption, pure_bind, hfull] <;> exact .together hraised

theorem create (h : R w w') (name : String) (e : Entity) :
    Accords R A (Act.create name e ph w) (Act.create name e ph w') := by
  show Accords R A (.done w.store.size, { w with store := w.store.push ⟨name, e, true⟩ })
    (.done w'.store.size, { w' with store := w'.store.push ⟨name, e, true⟩ })
  rw [hr.store h]
  exact .together (hr.replace h _)

theorem change (h : R w w') (x : Id) (f : Structure → Structure) :
    let change : Act Unit := entity x >>= fun e => ofOption .wrongKind e.struct? >>= fun t =>
      put x (e.withStruct (f t))
    Accords R A (change ph w) (change ph w') := by
  refine hr.entity_bind h fun e => ?_
  cases e.struct? with
  | none => exact .together h
  | some t => exact .together (hr.modify h x _)

end Accordance

/-! ## Acts under supervision -/

/-- The runs of an act under supervision accord if those of its checks do. -/
theorem Supervised.accords {x : Act α} (h : Supervised ph k x) (hr : Accordance R A)
    (hw : R w w') : Accords R A (x ph w) (x ph w') := by
  induction h generalizing w w' with
  | pure a => exact .together hw
  | bind _ hf ihx ihf =>
    exact hr.bind (ihx hw) (fun a _ _ => ihf a) fun a => (hf a).composed.onward
  | refuse m => exact .together hw
  | look view =>
    dsimp only
    rw [hr.environment hw, hr.store hw]
    exact .together hw
  | entity x _ ih => exact hr.entity_bind hw fun e => ih e hw
  | running => exact hr.running hw _
  | emit he => exact .together (hr.emit hw _ he)
  | check failure => exact hr.check hw failure _
  | raise x => exact hr.raise hw x
  | put _ _ => exact .together (hr.modify hw _ _)
  | retire _ => exact .together (hr.modify hw _ _)
  | expire x => exact hr.running (hr.modify hw x _) _
  | create name _ => exact hr.create hw name _
  | introduce name h =>
    exact hr.bind (hr.running hw _) (fun _ _ _ hw₁ => hr.create hw₁ name _)
      fun _ _ => onward_create name h
  | change x f => exact hr.change hw x f
  | vacate _ v _ ih => exact ih (hr.modify hw _ _)
  | contained _ ih =>
    rw [contained_eq, contained_eq]
    exact (ih hw).map _
  | @onUnwind ph k α x d _ hd ihx ihd =>
    have hx := ihx hw
    have hl := onward_onUnwind (x := x) hd.composed ph w
    have hl' := onward_onUnwind (x := x) hd.composed ph w'
    unfold Act.onUnwind at *
    generalize x ph w = r at hx hl ⊢
    generalize x ph w' = r' at hx hl' ⊢
    cases hx with
    | @together o w₁ w₁' hw₁ =>
      cases o with
      | unwound failure =>
        dsimp only
        rw [cleanUp_eq, cleanUp_eq]
        exact (ihd hw₁).map _
      | _ => exact .together hw₁
    | apart h => exact .apart (hr.apart h hl hl')

end Act

end ObjectBoundary
