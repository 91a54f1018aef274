import ObjectBoundary.Owned.Wrapper
import ObjectBoundary.Proofs.Presence
import ObjectBoundary.Proofs.Quiet
import ObjectBoundary.Shared.Wrapper

/-!
# Structures of new wrappers

Making a wrapper moves references and may destroy objects, but it leaves all structures alone. So
the structure that a class hands out is the one that it has made: it records its full size, and no
member is lacking.

* `World.KeepsStructs`: no structure has changed or got lost.
* `structs_retain`, `structs_drop`: moving references keeps all structures.
* `ends_wrap_struct`, `ends_give_struct`, `ends_lend_struct`: what a class hands out.
* `presence_by_size`: the recorded size decides which members are present, and new structures lack
  none.
-/

namespace ObjectBoundary

/-- The structure that an entity keeps in memory. -/
def Store.struct? (st : Store) (x : Id) : Option Structure :=
  (st.get? x).bind fun n => n.entity.struct?

theorem Store.struct?_modify {st : Store} {x : Id} {f : Node → Node}
    (h : ∀ n, st.get? x = some n → (f n).entity.struct? = n.entity.struct?) (y : Id) :
    (st.modify x f).struct? y = st.struct? y := by
  rw [struct?, struct?, get?_modify]
  split
  · rename_i hxy
    subst hxy
    cases hn : st.get? x with
    | none => rfl
    | some n => exact h n hn
  · rfl

theorem Entity.struct?_withCount (c : Count) (e : Entity) : (e.withCount c).struct? = e.struct? := by
  cases e <;> rfl

/-- No structure has changed or got lost. -/
def World.KeepsStructs (w w' : World) : Prop :=
  ∀ x t, w.store.struct? x = some t → w'.store.struct? x = some t

instance : IsPreorder World World.KeepsStructs where
  refl _ _ _ h := h
  trans _ _ _ h h' x t ht := h' x t (h x t ht)

namespace Act

variable {α : Type} {w : World} {x : Id}

/-! ## Acts that keep all structures -/

theorem structs_of_quiet {a : Act α} (h : Respects World.Quiet a w) :
    Respects World.KeepsStructs a w :=
  respects_mono h fun _ hq x t ht => by rw [hq.store, ht]

theorem structs_emit (e : Event) : Respects World.KeepsStructs (emit e) w :=
  respects_modify fun _ _ h => h

theorem structs_emit_bind {e : Event} {f : Unit → Act α}
    (h : Respects World.KeepsStructs (f ()) { w with log := w.log ++ [e] }) :
    Respects World.KeepsStructs (emit e >>= f) w := h

theorem structs_put {n : Node} {e : Entity} (hn : w.store.get? x = some n)
    (he : e.struct? = n.entity.struct?) : Respects World.KeepsStructs (put x e) w := by
  refine respects_modify fun y t ht => (Store.struct?_modify (fun m hm => ?_) y).trans ht
  cases hn.symm.trans hm
  exact he

theorem structs_retire : Respects World.KeepsStructs (retire x) w := by
  have hkeeps (n : Node) : { n with live := false }.entity.struct? = n.entity.struct? := rfl
  exact respects_modify fun y _ ht => (Store.struct?_modify (fun n _ => hkeeps n) y).trans ht

theorem structs_raise : Respects World.KeepsStructs (raise x) w := by
  refine respects_entity_bind fun n hn _ => ?_
  cases n.entity.count? with
  | none => exact respects_refuse _
  | some c =>
    rw [ofOption_some_bind]
    refine respects_bind (structs_put hn (Entity.struct?_withCount _ _)) fun _ _ _ => ?_
    refine respects_bind (structs_emit _) fun _ _ _ => ?_
    split
    · exact respects_abort
    · exact respects_pure _

theorem structs_lower : Respects World.KeepsStructs (lower x) w := by
  refine respects_entity_bind fun n hn _ => ?_
  cases n.entity.count? with
  | none => exact respects_refuse _
  | some c =>
    rw [ofOption_some_bind]
    refine respects_bind (structs_put hn (Entity.struct?_withCount _ _)) fun _ _ _ => ?_
    refine respects_bind (structs_emit _) fun _ _ _ => ?_
    exact respects_bind (structs_of_quiet (respects_require _ _)) fun _ _ _ => respects_pure _

/-- What has lost its last reference is destroyed. -/
theorem structs_lower_bind {destroy : Act Unit}
    (h : ∀ w', Respects World.KeepsStructs destroy w') :
    Respects World.KeepsStructs
      (do
        let last ← lower x
        if last then destroy
        pure (truth last))
      w := by
  refine respects_bind structs_lower fun last w' _ => ?_
  cases last with
  | true => exact respects_map (h w')
  | false => exact respects_pure _

theorem structs_retainAlong (xs : List Id) :
    Respects World.KeepsStructs (retainAlong xs) w := by
  induction xs generalizing w with
  | nil => exact respects_refuse _
  | cons x below ih =>
    refine respects_entity_bind fun n hn _ => ?_
    cases he : n.entity with
    | sharedObject o => exact structs_raise
    | sharedWrapper v => exact respects_bind ih fun _ _ _ => structs_raise
    | sharedProxy p =>
      exact respects_bind (respects_through fun _ _ => ih) fun _ _ _ => structs_raise
    | sharedFar f => exact structs_emit_bind (structs_put hn (by rw [he]; rfl))
    | _ => exact respects_refuse _

theorem structs_releaseAlong (xs : List Id) :
    Respects World.KeepsStructs (releaseAlong xs) w := by
  induction xs generalizing w with
  | nil => exact respects_refuse _
  | cons x below ih =>
    have hretired (w' : World) :
        Respects World.KeepsStructs (retire x >>= fun _ => requireRunning) w' :=
      respects_bind structs_retire fun _ _ _ => structs_of_quiet respects_requireRunning
    have hdropped (w' : World) :
        Respects World.KeepsStructs (retire x >>= fun _ => emit (.dropped x)) w' :=
      respects_bind structs_retire fun _ _ _ => structs_emit _
    refine respects_entity_bind fun n hn _ => ?_
    cases he : n.entity with
    | sharedObject o => exact structs_lower_bind hdropped
    | sharedWrapper v =>
      exact respects_bind (respects_discard ih) fun _ _ _ => structs_lower_bind hretired
    | sharedProxy p =>
      exact respects_bind (respects_discard (respects_through fun _ _ => ih)) fun _ _ _ =>
        structs_lower_bind hretired
    | sharedFar f =>
      exact structs_emit_bind (respects_map (structs_put hn (by rw [he]; rfl)))
    | _ => exact respects_refuse _

theorem structs_retain : Respects World.KeepsStructs (retain x) w :=
  respects_bind (respects_chain x) fun _ _ _ => structs_retainAlong _

theorem structs_drop : Respects World.KeepsStructs (drop x) w :=
  respects_discard (respects_bind (respects_chain x) fun _ _ _ => structs_releaseAlong _)

/-! ## What a class hands out -/

theorem ends_create_struct {name : String} {e : Entity} {t : Structure} (he : e.struct? = some t) :
    Ends (create name e) w (fun z w' => w'.store.struct? z = some t) fun _ _ => True := by
  refine ends_get_bind (ends_modify_bind (ends_pure ?_))
  show (w.store.push ⟨name, e, true⟩).struct? w.store.size = some t
  rw [Store.struct?, Store.get?_push, if_pos rfl]
  exact he

/-- What keeps all structures keeps a certain one. -/
theorem ends_keeping {a : Act α} {z : Id} {t : Structure}
    (ha : ∀ w, Respects World.KeepsStructs a w) (hz : w.store.struct? z = some t) :
    Ends a w (fun _ w' => w'.store.struct? z = some t) fun _ _ => True :=
  ends_mono (ends_of_respects (ha w)) (fun _ _ h => h z t hz) fun _ _ _ => trivial

theorem ends_handOut_struct {name : String} {e : Entity} {event : Event} {t : Structure}
    (he : e.struct? = some t) :
    Ends
      (do
        requireRunning
        let z ← create name e
        emit event
        pure z)
      w (fun z w' => w'.store.struct? z = some t) fun _ _ => True :=
  ends_bind ends_true fun _ _ _ => ends_bind (ends_create_struct he) fun _ _ hz =>
    ends_modify_bind (ends_pure hz)

end Act

open Act

section Wrappers

variable {w : World}

theorem SharedClass.ends_wrap_struct (c : SharedClass) (name : String) (o : Id) :
    Ends (c.wrap name o) w (fun z w' => w'.store.struct? z = some c.newStruct)
      fun _ _ => True := by
  refine ends_ensuring (P := fun z w' => w'.store.struct? z = some c.newStruct)
    (V := fun _ _ => True) ?_ (fun _ _ _ => ends_true)
    fun z w₁ hz => ends_keeping (fun _ => structs_drop) hz
  refine ends_bind ends_true fun _ w₁ _ => ?_
  refine ends_bind (ends_create_struct rfl) fun z w₂ hz => ?_
  refine ends_bind (ends_keeping (fun _ => structs_retain) hz) fun _ w₃ hz => ?_
  exact ends_modify_bind (ends_pure hz)

theorem OwnedClass.ends_give_struct (c : OwnedClass) (name : String) (o : Id) :
    Ends (c.give name o) w (fun z w' => w'.store.struct? z = some (c.newStruct true))
      fun _ _ => True := ends_handOut_struct rfl

theorem OwnedClass.ends_lend_struct (c : OwnedClass) (name : String) (o : Id) :
    Ends (c.lend name o) w (fun z w' => w'.store.struct? z = some (c.newStruct false))
      fun _ _ => True := ends_handOut_struct rfl

end Wrappers

/-- The structure of an entity records its full size and has all members. -/
def World.HoldsWhole (z : Id) (w : World) : Prop :=
  ∃ t, w.store.struct? z = some t ∧ t.IsWhole

/-- Of every structure, whatever its members, the recorded size decides which words are present, and
the checks that find out never overflow. Whatever a class of wrappers hands out has all members. -/
theorem presence_by_size :
    (∀ s : Structure, s.PresentBySize) ∧
      (∀ (l : Layout) (set : List Bool), l.byteSize < UInt64.size →
        (Structure.full l set).IsWhole) ∧
      (∀ (c : SharedClass) (name : String) (o : Id) (w : World),
        Ends (c.wrap name o) w World.HoldsWhole fun _ _ => True) ∧
      (∀ (c : OwnedClass) (name : String) (o : Id) (w : World),
        Ends (c.give name o) w World.HoldsWhole fun _ _ => True) ∧
      ∀ (c : OwnedClass) (name : String) (o : Id) (w : World),
        Ends (c.lend name o) w World.HoldsWhole fun _ _ => True := by
  have holds {t : Structure} (ht : t.IsWhole) (z : Id) (w : World)
      (hz : w.store.struct? z = some t) : w.HoldsWhole z := ⟨t, hz, ht⟩
  refine ⟨Structure.presentBySize, fun l set h => Structure.isWhole_full h set,
    fun c name o w => ?_, fun c name o w => ?_, fun c name o w => ?_⟩
  · exact ends_mono (c.ends_wrap_struct name o) (holds c.isWhole_newStruct) fun _ _ h => h
  · exact ends_mono (c.ends_give_struct name o) (holds (c.isWhole_newStruct true)) fun _ _ h => h
  · exact ends_mono (c.ends_lend_struct name o) (holds (c.isWhole_newStruct false)) fun _ _ h => h

end ObjectBoundary
