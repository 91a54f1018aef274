import ObjectBoundary.Inspection
import ObjectBoundary.Owned.Proxy
import ObjectBoundary.Owned.Wrapper
import ObjectBoundary.Shared.Proxy
import ObjectBoundary.Shared.Wrapper
import ObjectBoundary.Act.Members
import ObjectBoundary.Proofs.Acts.Exhaustion

/-!
# Rejected arguments

Some checks concern what an operation was given: a structure, a receiver or an object of the wrong
class or the wrong owner. An operation whose check of this kind fails is done with nothing: no
object, no structure or the number zero. References, values and disposal, which go down a chain,
make no such check on the way.

* `World.Accepts`: nothing was rejected.
* `accepts_retain`, `accepts_dispose` and their like: acts that reject nothing.
* `Act.Rejects`: an act that is done has rejected nothing, or it has a certain value.
* `rejects_unwrap`, `rejects_call` and their like: what the operations do.
-/

namespace ObjectBoundary

variable {α β : Type}

/-! ## Rejections -/

/-- The failure of a check of what an operation was given. -/
def Failure.isRejection : Failure → Bool
  | .nullBase | .nullReceiver | .otherClass _ _ | .unexpectedClass _ | .notProxy _ | .notOwning
  | .emptyProxy | .undeletable => true
  | _ => false

def Event.isRejection : Event → Bool
  | .failed failure => failure.isRejection
  | _ => false

namespace World

def rejections (w : World) : List Event := w.failures.filter Event.isRejection

/-- Nothing was rejected. -/
def Accepts (w w' : World) : Prop := w'.rejections = w.rejections

instance : IsPreorder World Accepts where
  refl _ := rfl
  trans _ _ _ h h' := h'.trans h

end World

/-- A proxy holds a structure that cannot be deleted. -/
def Store.HoldsUndeletable (st : Store) (x s : Id) : Prop :=
  ∃ n p m t, st.get? x = some n ∧ n.entity = .ownedProxy p ∧ p.target = some s ∧
    st.get? s = some m ∧ m.entity.struct? = some t ∧ t.isSet Layout.del = false

namespace Act

variable {w : World} {x : Act α} {f : α → Act β} {P : α → Prop} {Q : β → Prop}

/-! ## Acts that reject nothing -/

theorem accepts_emit {e : Event} (h : e.isFailure = false) :
    Respects World.Accepts (emit e) w := by
  intro _
  exact congrArg (List.filter Event.isRejection) (w.failures_emit h)

theorem accepts_settings : Respects World.Accepts settings w := by
  intro phase
  obtain ⟨w', happly, hconsults⟩ := settings_apply phase w
  rw [happly]
  exact congrArg (List.filter Event.isRejection) hconsults.failures

theorem unwind_world (failure : Failure) (phase : Phase) (w : World) :
    (unwind failure phase w).2 = w := by
  cases phase <;> rfl

/-- A failed check adds one rejection if it is a check of this kind, and none otherwise. -/
theorem rejections_check (failure : Failure) :
    Respects (fun w w' => w'.rejections =
      w.rejections ++ if failure.isRejection then [.failed failure] else []) (check failure) w := by
  intro phase
  obtain ⟨w', -, hfailures, happly⟩ := check_apply failure phase w
  have hworld : (check failure phase w).2 = w' := by
    rw [happly]
    split
    · exact unwind_world failure phase w'
    · rfl
  rw [hworld, World.rejections, hfailures, List.filter_append]
  cases h : failure.isRejection <;> simp [World.rejections, Event.isRejection, h]

theorem accepts_check {failure : Failure} (h : failure.isRejection = false) :
    Respects World.Accepts (check failure) w := by
  refine respects_mono (rejections_check failure) fun w' hw => ?_
  rw [World.Accepts, hw, h]
  exact List.append_nil _

theorem accepts_require {condition : Bool} {failure : Failure}
    (h : failure.isRejection = false) : Respects World.Accepts (require condition failure) w := by
  unfold require
  split
  · exact respects_pure _
  · exact accepts_check h

theorem accepts_requireRunning : Respects World.Accepts requireRunning w := by
  refine respects_bind accepts_settings fun s _ _ => ?_
  split
  · exact respects_bind respects_get fun _ _ _ => accepts_require rfl
  · exact respects_pure _

theorem accepts_put (x : Id) (e : Entity) : Respects World.Accepts (put x e) w := fun _ => rfl

theorem accepts_retire (x : Id) : Respects World.Accepts (retire x) w := fun _ => rfl

theorem accepts_create (name : String) (e : Entity) : Respects World.Accepts (create name e) w :=
  fun _ => rfl

theorem accepts_raise (x : Id) : Respects World.Accepts (raise x) w := by
  refine respects_entity_bind fun n _ _ => respects_bind (respects_ofOption _ _) fun c _ _ => ?_
  refine respects_bind (accepts_put x _) fun _ _ _ => ?_
  refine respects_bind (accepts_emit rfl) fun _ _ _ => ?_
  split
  · exact respects_abort
  · exact respects_pure _

theorem accepts_lower (x : Id) : Respects World.Accepts (lower x) w := by
  refine respects_entity_bind fun n _ _ => respects_bind (respects_ofOption _ _) fun c _ _ => ?_
  refine respects_bind (accepts_put x _) fun _ _ _ => ?_
  refine respects_bind (accepts_emit rfl) fun _ _ _ => ?_
  exact respects_map (accepts_require rfl)

theorem accepts_retainAlong (xs : List Id) : Respects World.Accepts (retainAlong xs) w := by
  induction xs generalizing w with
  | nil => exact respects_refuse _
  | cons x below ih =>
    apply respects_entity_bind
    intro n _ _
    cases n.entity with
    | sharedObject o => exact accepts_raise x
    | sharedWrapper v => exact respects_bind ih fun _ _ _ => accepts_raise x
    | sharedProxy p =>
      exact respects_bind (respects_through fun _ _ => ih) fun _ _ _ => accepts_raise x
    | sharedFar f => exact respects_bind (accepts_emit rfl) fun _ _ _ => accepts_put x _
    | _ => exact respects_refuse _

theorem accepts_releaseAlong (xs : List Id) : Respects World.Accepts (releaseAlong xs) w := by
  have last {x : Id} {t : Act Unit} {w : World} (ht : ∀ w, Respects World.Accepts t w) :
      Respects World.Accepts
        (do
          let last ← lower x
          if last then
            retire x
            t
          pure (truth last)) w := by
    refine respects_bind (accepts_lower x) fun b _ _ => ?_
    split
    · refine respects_bind (accepts_retire x) fun _ _ _ => respects_bind (ht _) fun _ _ _ => ?_
      exact respects_pure _
    · exact respects_pure _
  induction xs generalizing w with
  | nil => exact respects_refuse _
  | cons x below ih =>
    apply respects_entity_bind
    intro n _ _
    cases n.entity with
    | sharedObject o => exact last fun _ => accepts_emit rfl
    | sharedWrapper v =>
      exact respects_bind (respects_discard ih) fun _ _ _ => last fun _ => accepts_requireRunning
    | sharedProxy p =>
      refine respects_bind (respects_discard (respects_through fun _ _ => ih)) fun _ _ _ => ?_
      exact last fun _ => accepts_requireRunning
    | sharedFar f =>
      refine respects_bind (accepts_emit rfl) fun _ _ _ => ?_
      exact respects_map (accepts_put x _)
    | _ => exact respects_refuse _

theorem accepts_askAlong (q : Question) (xs : List Id) :
    Respects World.Accepts (askAlong q xs) w := by
  induction xs generalizing w with
  | nil => exact respects_refuse _
  | cons x below ih =>
    apply respects_entity_bind
    intro n _ _
    cases n.entity with
    | sharedObject o => exact respects_pure _
    | sharedWrapper v => exact respects_map ih
    | sharedProxy p =>
      exact respects_map (respects_through fun _ _ => ih)
    | sharedFar f => exact respects_map (accepts_emit rfl)
    | _ => exact respects_refuse _

theorem accepts_farAnswer (x : Id) (a : FarAnswers) (index : Nat) :
    Respects World.Accepts (farAnswer x a index) w := by
  refine respects_bind (respects_ofOption _ _) fun _ _ _ => ?_
  exact respects_map (accepts_emit rfl)

theorem accepts_answerAlong (index : Nat) (xs : List Id) :
    Respects World.Accepts (answerAlong index xs) w := by
  induction xs generalizing w with
  | nil => exact respects_refuse _
  | cons x below ih =>
    have hcheck {w : World} :
        Respects World.Accepts (requireRunning >>= fun _ => answerAlong index below) w :=
      respects_bind accepts_requireRunning fun _ _ _ => ih
    apply respects_entity_bind
    intro n _ _
    cases n.entity with
    | sharedObject o => exact respects_ofOption _ _
    | ownedObject o => exact respects_ofOption _ _
    | sharedWrapper v =>
      dsimp only
      cases v.cls with
      | table _ _ => exact hcheck
      | _ => exact respects_bind accepts_requireRunning fun _ _ _ => hcheck
    | ownedWrapper v => exact respects_bind accepts_requireRunning fun _ _ _ => hcheck
    | sharedProxy p =>
      exact respects_bind accepts_requireRunning fun _ _ _ => respects_throughOffered fun _ _ => ih
    | ownedProxy p =>
      refine respects_bind accepts_requireRunning fun _ _ _ => ?_
      cases p.target with
      | none => exact respects_pure _
      | some s => exact respects_throughOffered fun _ _ => ih
    | sharedFar f => exact accepts_farAnswer _ _ _
    | ownedFar f => exact accepts_farAnswer _ _ _
    | _ => exact respects_refuse _

theorem accepts_disposeAlong (xs : List Id) : Respects World.Accepts (disposeAlong xs) w := by
  induction xs generalizing w with
  | nil => exact respects_refuse _
  | cons x below ih =>
    apply respects_entity_bind
    intro n _ _
    cases n.entity with
    | ownedObject o => exact respects_bind (accepts_retire x) fun _ _ _ => accepts_emit rfl
    | ownedWrapper v =>
      apply respects_bind (accepts_retire x)
      intro _ _ _
      refine respects_bind accepts_requireRunning fun _ _ _ => ?_
      split
      · exact ih
      · exact respects_pure _
    | ownedProxy p =>
      apply respects_bind (accepts_retire x)
      intro _ _ _
      refine respects_bind accepts_requireRunning fun _ _ _ => ?_
      cases p.target with
      | none => exact respects_pure _
      | some s => exact respects_through fun _ _ => ih
    | ownedFar f => exact respects_bind (accepts_emit rfl) fun _ _ _ => accepts_put x _
    | _ => exact respects_refuse _

/-- What an act does along the chain of an entity. -/
theorem accepts_along {along : List Id → Act α} (x : Id)
    (h : ∀ xs w, Respects World.Accepts (along xs) w) :
    Respects World.Accepts (chain x >>= along) w :=
  respects_bind (respects_chain x) fun xs w' _ => h xs w'

theorem accepts_retain (x : Id) : Respects World.Accepts (retain x) w :=
  accepts_along x fun xs _ => accepts_retainAlong xs

theorem accepts_release (x : Id) : Respects World.Accepts (release x) w :=
  accepts_along x fun xs _ => accepts_releaseAlong xs

theorem accepts_drop (x : Id) : Respects World.Accepts (drop x) w :=
  respects_discard (accepts_release x)

theorem accepts_ask (q : Question) (x : Id) : Respects World.Accepts (ask q x) w :=
  accepts_along x fun xs _ => accepts_askAlong q xs

theorem accepts_answer (index : Nat) (x : Id) : Respects World.Accepts (answer index x) w :=
  accepts_along x fun xs _ => accepts_answerAlong index xs

theorem accepts_dispose (x : Id) : Respects World.Accepts (dispose x) w :=
  accepts_along x fun xs _ => accepts_disposeAlong xs

theorem accepts_wrapperTag (s : Id) : Respects World.Accepts (wrapperTag s) w :=
  respects_bind (respects_entity s) fun _ _ _ => respects_ofOption _ _

/-! ## Acts that may reject -/

/-- An act that is done has rejected nothing, or its value is of a certain kind. -/
def Rejects (x : Act α) (w : World) (P : α → Prop) : Prop :=
  Ends x w (fun a w' => w.Accepts w' ∨ P a) fun _ _ => True

theorem rejects_of_accepts (h : Respects World.Accepts x w) : Rejects x w P :=
  ends_mono (ends_of_respects h) (fun _ _ ha => Or.inl ha) fun _ _ _ => trivial

theorem rejects_refuse {m : Misuse} : Rejects (refuse m : Act α) w P := ends_refuse

/-- An act whose value is of this kind in any case. -/
theorem rejects_of_ends {U : Failure → World → Prop} (h : Ends x w (fun a _ => P a) U) :
    Rejects x w P :=
  ends_mono h (fun _ _ ha => Or.inr ha) fun _ _ _ => trivial

/-- Of two acts in sequence, it is the second one that rejects. -/
theorem rejects_bind_of_accepts (hx : Respects World.Accepts x w)
    (hf : ∀ a w', Rejects (f a) w' Q) : Rejects (x >>= f) w Q := by
  refine ends_bind (P := fun _ w' => w.Accepts w')
    (ends_mono (ends_of_respects hx) (fun _ _ ha => ha) fun _ _ _ => trivial) fun a w' ha => ?_
  refine ends_mono (hf a w') (fun b w'' hb => ?_) fun _ _ h => h
  exact hb.imp_left fun hb => trans_of World.Accepts ha hb

/-- Of two acts in sequence, either may reject. What the first one is then done with decides what
the second one is done with. -/
theorem rejects_bind (hx : Rejects x w P) (hf : ∀ a w', Rejects (f a) w' Q)
    (hP : ∀ a w', P a → Ends (f a) w' (fun b _ => Q b) fun _ _ => True) :
    Rejects (x >>= f) w Q := by
  refine ends_bind hx fun a w' ha => ?_
  rcases ha with ha | ha
  · refine ends_mono (hf a w') (fun b w'' hb => ?_) fun _ _ h => h
    exact hb.imp_left fun hb => trans_of World.Accepts ha hb
  · exact ends_mono (hP a w' ha) (fun _ _ hb => Or.inr hb) fun _ _ h => h

/-- Where what the first act is then done with is known, so is the second one. -/
theorem rejects_bind_eq {a₀ : α} (hx : Rejects x w (· = a₀)) (hf : ∀ a w', Rejects (f a) w' Q)
    (h₀ : ∀ w', Ends (f a₀) w' (fun b _ => Q b) fun _ _ => True) : Rejects (x >>= f) w Q := by
  refine rejects_bind hx hf fun a w' ha => ?_
  rw [ha]
  exact h₀ w'

theorem rejects_map {g : α → β} (hx : Rejects x w P) (hg : ∀ a, P a → Q (g a)) :
    Rejects (x >>= fun a => pure (g a)) w Q :=
  rejects_bind hx (fun _ _ => rejects_of_accepts (respects_pure _)) fun a _ ha =>
    ends_pure (hg a ha)

theorem rejects_entity_bind {y : Id} {f : Entity → Act β}
    (hf : ∀ n, w.store.get? y = some n → Rejects (f n.entity) w Q) :
    Rejects (entity y >>= f) w Q :=
  ends_entity_bind fun n hn _ => hf n hn

theorem rejects_contained (hx : Rejects x w P) : Rejects (contained x) w P := ends_contained hx

/-- A clean-up rejects nothing. -/
theorem rejects_ensuring {c : Act Unit} (hx : Rejects x w P)
    (hc : ∀ w', Respects World.Accepts c w') : Rejects (ensuring x c) w P := by
  refine ends_ensuring (V := fun _ _ => True) hx (fun _ _ _ => ends_true) fun a w' ha => ?_
  refine ends_mono (ends_of_respects (hc w')) (fun _ w'' hw => ?_) fun _ _ _ => trivial
  exact ha.imp_left fun ha => trans_of World.Accepts ha hw

/-- A failed check after which there is nothing to return. -/
theorem rejects_check (failure : Failure) :
    Rejects (check failure >>= fun _ => pure (none : Option Id)) w (· = none) :=
  rejects_of_ends (U := fun _ _ => True) (ends_bind ends_true fun _ _ _ => ends_pure rfl)

/-! ## Recognising wrappers -/

theorem rejects_recognises (t : Tag) (s : Id) : Rejects (recognises t s) w (· = false) := by
  refine rejects_bind_of_accepts (accepts_wrapperTag s) fun found w' => ?_
  cases found == t with
  | true => exact rejects_of_accepts (respects_pure true)
  | false =>
    exact rejects_of_ends (U := fun _ _ => True) (ends_bind ends_true fun _ _ _ => ends_pure rfl)

/-- What is not recognised is left alone. -/
theorem rejects_recognised {t : Tag} {s : Id} {y : Act α} {a : α}
    (hy : ∀ w, Rejects y w (· = a)) :
    Rejects (recognises t s >>= fun b => if b then y else pure a) w (· = a) := by
  refine rejects_bind_eq (rejects_recognises t s) (fun b w' => ?_) fun _ => ends_pure rfl
  split
  · exact hy w'
  · exact rejects_of_accepts (respects_pure _)

theorem rejects_objectOf (t : Tag) (s : Id) : Rejects (objectOf t s) w (· = none) := by
  refine rejects_bind_of_accepts accepts_requireRunning fun _ _ => rejects_recognised fun _ => ?_
  exact rejects_of_accepts (respects_map (respects_entity s))

/-- Where there is no object there is no value. -/
theorem rejects_object {t : Tag} {s : Id} {index : Nat} {a : Int32} :
    Rejects
      (do
        match ← objectOf t s with
        | some object => answer index object
        | none => pure a) w (· = a) := by
  refine rejects_bind_eq (rejects_objectOf t s) (fun o w' => ?_) fun _ => ends_pure rfl
  cases o with
  | none => exact rejects_of_accepts (respects_pure a)
  | some object => exact rejects_of_accepts (accepts_answer index object)

/-! ## Function members -/

theorem rejects_baseMember {t : Tag} {r : Option Id} {a : α} {f : Id → Act α}
    (hf : ∀ s w, Respects World.Accepts (f s) w) : Rejects (baseMember t r a f) w (· = a) := by
  cases r with
  | none =>
    exact rejects_of_ends (U := fun _ _ => True) (ends_bind ends_true fun _ _ _ => ends_pure rfl)
  | some s => exact rejects_recognised fun w' => rejects_of_accepts (hf s w')

theorem rejects_interfaceMember (t : Tag) (r : Option Id) (index : Nat) :
    Rejects (interfaceMember t r index) w (· = 0) := by
  refine rejects_bind_of_accepts accepts_requireRunning fun _ _ => ?_
  cases r with
  | none =>
    exact rejects_of_ends (U := fun _ _ => True) (ends_bind ends_true fun _ _ _ => ends_pure rfl)
  | some s => exact rejects_object

theorem rejects_tableMember (t : Tag) (r : Option Id) (index : Nat) :
    Rejects (tableMember t r index) w (· = -1) := by
  cases r with
  | none => exact rejects_of_accepts (respects_pure _)
  | some s => exact rejects_object

/-- The reply of a function without a result, or zero. -/
def Reply.isEmpty : Reply → Bool
  | .absent => false
  | .nothing => true
  | .number n => n == 0

theorem rejects_number {y : Act Int32} {a : Int32} {P : Reply → Prop} (hy : Rejects y w (· = a))
    (ha : P (.number a)) : Rejects (y >>= fun n => pure (Reply.number n)) w P :=
  rejects_map hy fun _ hn => hn ▸ ha

/-- The members of a table are those of whoever made the class, and answer the last number but zero
instead. -/
theorem rejects_sharedMember (c : SharedClass) (position : Nat) (r : Option Id) :
    Rejects (sharedMember c position r) w fun reply =>
      reply.isEmpty = true ∨ (∃ width h, c = .table width h) ∧ reply = .number (-1) := by
  match position with
  | 0 =>
    exact rejects_map (rejects_baseMember fun s _ => accepts_retain s) fun _ _ => Or.inl rfl
  | 1 => exact rejects_number (rejects_baseMember fun s _ => accepts_release s) (Or.inl rfl)
  | 2 | 3 => exact rejects_number (rejects_baseMember fun s _ => accepts_ask _ s) (Or.inl rfl)
  | index + 4 =>
    dsimp only [sharedMember]
    split
    · exact rejects_number (rejects_tableMember _ _ _) (Or.inr ⟨⟨_, _, rfl⟩, rfl⟩)
    · exact rejects_number (rejects_interfaceMember _ _ _) (Or.inl rfl)

theorem rejects_ownedMember (c : OwnedClass) (position : Nat) (r : Option Id) :
    Rejects (ownedMember c position r) w fun reply => reply.isEmpty = true := by
  match position with
  | 0 => exact rejects_map (rejects_baseMember fun s _ => accepts_dispose s) fun _ _ => rfl
  | index + 1 => exact rejects_number (rejects_interfaceMember _ _ _) rfl

theorem accepts_number {y : Act Int32} (h : Respects World.Accepts y w) :
    Respects World.Accepts (y >>= fun n => pure (Reply.number n)) w :=
  respects_map h

theorem accepts_sharedFarMember (position : Nat) (x : Id) :
    Respects World.Accepts (sharedFarMember position x) w := by
  refine respects_entity_bind fun n _ _ => ?_
  cases n.entity with
  | sharedFar f =>
    match position with
    | 0 => exact respects_map (accepts_retain x)
    | 1 => exact accepts_number (accepts_release x)
    | 2 | 3 => exact accepts_number (accepts_ask _ x)
    | index + 4 => exact accepts_number (accepts_farAnswer x _ _)
  | _ => exact respects_refuse _

theorem accepts_ownedFarMember (position : Nat) (x : Id) :
    Respects World.Accepts (ownedFarMember position x) w := by
  refine respects_entity_bind fun n _ _ => ?_
  cases n.entity with
  | ownedFar f =>
    match position with
    | 0 => exact respects_map (accepts_dispose x)
    | index + 1 => exact accepts_number (accepts_farAnswer x _ _)
  | _ => exact respects_refuse _

/-- The structure belongs to a wrapper of a class of tables. -/
def IsTable (w : World) (s : Id) : Prop :=
  ∃ n v width h, w.store.get? s = some n ∧ n.entity = .sharedWrapper v ∧ v.cls = .table width h

theorem rejects_call (s : Id) (position : Nat) (r : Option Id) :
    Rejects (call s position r) w fun reply =>
      reply.isEmpty = true ∨ IsTable w s ∧ reply = .number (-1) := by
  refine rejects_entity_bind fun n hn => ?_
  refine rejects_bind_of_accepts (respects_ofOption _ _) fun t w' => ?_
  split
  · cases he : n.entity with
    | sharedWrapper v =>
      refine rejects_contained ?_
      refine ends_mono (rejects_sharedMember v.cls position r) (fun reply w'' h => ?_)
        fun _ _ h => h
      refine h.imp_right fun h => h.imp_right fun h => ?_
      obtain ⟨⟨width, hwidth, hcls⟩, hreply⟩ := h
      exact ⟨⟨n, v, width, hwidth, hn, he, hcls⟩, hreply⟩
    | ownedWrapper v =>
      refine rejects_contained ?_
      refine ends_mono (rejects_ownedMember v.cls position r) (fun reply w'' h => ?_) fun _ _ h => h
      exact h.imp_right Or.inl
    | sharedFar f =>
      refine rejects_of_accepts (respects_bind (respects_ofOption _ _) fun y _ _ => ?_)
      exact accepts_sharedFarMember position y
    | ownedFar f =>
      refine rejects_of_accepts (respects_bind (respects_ofOption _ _) fun y _ _ => ?_)
      exact accepts_ownedFarMember position y
    | _ => exact rejects_refuse
  · exact rejects_of_accepts (respects_pure _)

end Act

/-! ## Crossing the boundary -/

open Act

variable {w : World}

namespace SharedClass

theorem accepts_wrap (c : SharedClass) (name : String) (x : Id) :
    Respects World.Accepts (c.wrap name x) w := by
  refine respects_ensuring ?_ fun _ _ => accepts_drop x
  refine respects_bind accepts_requireRunning fun _ _ _ => ?_
  refine respects_bind (accepts_create name _) fun v _ _ => ?_
  refine respects_bind (accepts_retain v) fun _ _ _ => ?_
  exact respects_map (accepts_emit rfl)

theorem accepts_retrieve (c : SharedClass) (s : Id) : Respects World.Accepts (c.retrieve s) w := by
  refine respects_entity_bind fun n _ _ => ?_
  cases n.entity with
  | sharedWrapper v =>
    refine respects_bind (accepts_retain _) fun _ _ _ => ?_
    refine respects_bind (respects_onUnwind (respects_discard (accepts_release s)) fun _ _ =>
      accepts_drop _) fun _ _ _ => ?_
    exact respects_map (accepts_emit rfl)
  | _ => exact respects_refuse _

theorem rejects_unwrap (c : SharedClass) (s : Id) : Rejects (c.unwrap s) w (· = none) := by
  refine rejects_bind_of_accepts accepts_requireRunning fun _ _ => ?_
  refine rejects_bind_of_accepts (accepts_wrapperTag s) fun found _ => ?_
  split
  · exact rejects_of_accepts (c.accepts_retrieve s)
  · cases c.derived? found with
    | some d =>
      exact rejects_of_accepts (respects_bind accepts_requireRunning fun _ _ _ =>
        d.accepts_retrieve s)
    | none => exact rejects_check _

theorem rejects_inspect (c : SharedClass) (s : Id) : Rejects (c.inspect s) w (· = none) := by
  refine rejects_recognised fun w' => rejects_of_accepts (respects_entity_bind fun n _ _ => ?_)
  cases n.entity with
  | sharedWrapper v =>
    refine respects_bind (accepts_ask _ s) fun _ _ _ => ?_
    refine respects_bind (accepts_ask _ s) fun _ _ _ => ?_
    exact respects_map respects_get
  | _ => exact respects_refuse _

end SharedClass

namespace OwnedClass

theorem rejects_retrieve (c : OwnedClass) (s : Id) : Rejects (c.retrieve s) w (· = none) := by
  refine rejects_entity_bind fun n _ => ?_
  cases n.entity with
  | ownedWrapper v =>
    dsimp only
    cases v.owns with
    | true =>
      rw [require_true, pure_bind]
      apply rejects_of_accepts
      refine respects_bind (accepts_put s _) fun _ _ _ => ?_
      refine respects_bind (accepts_dispose s) fun _ _ _ => ?_
      exact respects_map (accepts_emit rfl)
    | false => exact rejects_check .notOwning
  | _ => exact rejects_refuse

theorem rejects_takeBack (c : OwnedClass) (s : Id) : Rejects (c.takeBack s) w (· = none) := by
  refine rejects_bind_of_accepts accepts_requireRunning fun _ _ => ?_
  refine rejects_bind_of_accepts (accepts_wrapperTag s) fun found _ => ?_
  split
  · exact c.rejects_retrieve s
  · cases c.derived? found with
    | some d => exact rejects_bind_of_accepts accepts_requireRunning fun _ _ => d.rejects_retrieve s
    | none => exact rejects_check _

theorem rejects_borrow (c : OwnedClass) (s : Id) : Rejects (c.borrow s) w (· = none) := by
  refine rejects_bind_of_accepts (accepts_wrapperTag s) fun found _ => ?_
  split
  · exact rejects_objectOf c.tag s
  · cases c.derived? found with
    | some d => exact rejects_objectOf d.tag s
    | none => exact rejects_check _

theorem rejects_inspect (c : OwnedClass) (s : Id) : Rejects (c.inspect s) w (· = none) := by
  refine rejects_recognised fun w' => rejects_of_accepts (respects_entity_bind fun n _ _ => ?_)
  cases n.entity <;> first | exact respects_pure _ | exact respects_refuse _

end OwnedClass

namespace ProxyClass

/-- Making a wrapper or proxy of what has a single owner. -/
theorem accepts_introduce (name : String) (e : Entity) (c : Crossing) (t : Tag) :
    Respects World.Accepts
      (do
        requireRunning
        let x ← create name e
        emit (.crossed c t)
        pure x) w := by
  refine respects_bind accepts_requireRunning fun _ _ _ => ?_
  refine respects_bind (accepts_create name _) fun x _ _ => ?_
  exact respects_map (accepts_emit rfl)

theorem accepts_receive (c : ProxyClass) (name : String) (s : Id) :
    Respects World.Accepts (c.receive name s) w := by
  refine respects_bind accepts_requireRunning fun _ _ _ => ?_
  refine respects_bind (accepts_create name _) fun p _ _ => ?_
  refine respects_bind (accepts_retain p) fun _ _ _ => ?_
  refine respects_bind (respects_discard ?_) fun _ _ _ => ?_
  · exact respects_through fun _ _ => accepts_release s
  · exact respects_map (accepts_emit rfl)

theorem accepts_handOut (c : ProxyClass) (x : Id) : Respects World.Accepts (c.handOut x) w := by
  refine respects_ensuring (respects_entity_bind fun n _ _ => ?_) fun _ _ => accepts_drop x
  cases n.entity with
  | sharedProxy p =>
    dsimp only
    split
    · refine respects_bind (respects_through fun _ _ => accepts_retain _) fun _ _ _ => ?_
      exact respects_map (accepts_emit rfl)
    · exact respects_refuse _
  | _ => exact respects_refuse _

theorem rejects_giveBack (c : ProxyClass) (x : Id) : Rejects (c.giveBack x) w (· = none) := by
  have hrunning {w : World} : Respects World.Accepts (onUnwind requireRunning (drop x)) w :=
    respects_onUnwind accepts_requireRunning fun _ _ => accepts_drop x
  refine rejects_bind_of_accepts hrunning fun _ _ => rejects_entity_bind fun n _ => ?_
  cases n.entity.reportedTag? with
  | none => exact rejects_ensuring (rejects_check _) fun _ => accepts_drop x
  | some found =>
    dsimp only
    split
    · exact rejects_of_accepts (c.accepts_handOut x)
    · cases c.sharedDerived? found with
      | some d => exact rejects_of_accepts (respects_bind hrunning fun _ _ _ => d.accepts_handOut x)
      | none => exact rejects_bind_of_accepts (accepts_drop x) fun _ _ => rejects_check _

theorem accepts_ownedProxy (c : ProxyClass) (x : Id) :
    Respects World.Accepts (c.ownedProxy x) w := by
  refine respects_entity_bind fun n _ _ => ?_
  cases n.entity with
  | ownedProxy p =>
    dsimp only
    split
    · exact respects_pure p
    · exact respects_refuse _
  | _ => exact respects_refuse _

theorem rejects_reveal (c : ProxyClass) (x : Id) : Rejects (c.reveal x) w (· = none) := by
  have htarget (d : ProxyClass) {w : World} :
      Respects World.Accepts (d.ownedProxy x >>= fun p => pure p.target) w :=
    respects_map (d.accepts_ownedProxy x)
  refine rejects_bind_of_accepts accepts_requireRunning fun _ _ => rejects_entity_bind fun n _ => ?_
  cases n.entity.reportedTag? with
  | none => exact rejects_check _
  | some found =>
    dsimp only
    split
    · exact rejects_of_accepts (htarget c)
    · cases c.ownedDerived? found with
      | some d =>
        exact rejects_of_accepts (respects_bind accepts_requireRunning fun _ _ _ => htarget d)
      | none => exact rejects_check _

/-! A proxy hands its structure out even if it cannot be deleted, which is reported. -/

/-- What is taken out of a proxy: with nothing rejected, nothing, or a structure without `del`. -/
def Takes (x : Id) (w : World) (o : Option Id) (w' : World) : Prop :=
  w.Accepts w' ∨ o = none ∨ ∃ s, o = some s ∧ w.store.HoldsUndeletable x s ∧
    w'.rejections = w.rejections ++ [.failed .undeletable]

theorem Takes.trans {x : Id} {o : Option Id} {w₁ w₂ : World} (h : Takes x w o w₁)
    (h' : w₁.Accepts w₂) : Takes x w o w₂ := by
  rcases h with h | h | ⟨s, ho, hs, h⟩
  · exact Or.inl (trans_of World.Accepts h h')
  · exact Or.inr (Or.inl h)
  · exact Or.inr (Or.inr ⟨s, ho, hs, h'.trans h⟩)

theorem Takes.of_accepts {x : Id} {o : Option Id} {w₁ w₂ : World} (hstore : w₁.store = w.store)
    (h : w.Accepts w₁) (h' : Takes x w₁ o w₂) : Takes x w o w₂ := by
  rcases h' with h' | h' | ⟨s, ho, hs, h'⟩
  · exact Or.inl (trans_of World.Accepts h h')
  · exact Or.inr (Or.inl h')
  · exact Or.inr (Or.inr ⟨s, ho, hstore ▸ hs, h'.trans (by rw [h])⟩)

theorem ends_ownedProxy (c : ProxyClass) (x : Id) :
    Ends (c.ownedProxy x) w
      (fun p w' => w' = w ∧ ∃ n, w.store.get? x = some n ∧ n.entity = .ownedProxy p)
      fun _ _ => True := by
  refine ends_entity_bind fun n hn _ => ?_
  cases he : n.entity with
  | ownedProxy p =>
    dsimp only
    split
    · exact ends_pure ⟨rfl, n, hn, he⟩
    · exact ends_refuse
  | _ => exact ends_refuse

theorem ends_extract (c : ProxyClass) (x : Id) :
    Ends (c.extract x) w (fun o w' => Takes x w o w') fun _ _ => True := by
  refine ends_bind (c.ends_ownedProxy x) fun p w₀ hpost => ?_
  obtain ⟨rfl, n, hn, he⟩ := hpost
  apply ends_modify_bind
  have hcleanup (o : Option Id) (w₁ : World) (h : Takes x w₀ o w₁) :
      Ends (dispose x) w₁ (fun _ w₂ => Takes x w₀ o w₂) fun _ _ => True :=
    ends_mono (ends_of_respects (accepts_dispose x)) (fun _ _ h' => h.trans h') fun _ _ _ => trivial
  refine ends_ensuring (V := fun _ _ => True) ?_ (fun _ _ _ => ends_true) hcleanup
  cases htarget : p.target with
  | none =>
    refine ends_bind (P := fun _ _ => True) ends_true fun _ _ _ => ?_
    exact ends_bind (P := fun _ _ => True) ends_true fun _ _ _ => ends_pure (Or.inr (Or.inl rfl))
  | some s =>
    rw [Option.isSome_some, require_true, pure_bind]
    dsimp only
    unfold struct
    rw [bind_assoc]
    apply ends_entity_bind
    intro m hm _
    cases hstruct : m.entity.struct? with
    | none => exact ends_refuse
    | some t =>
      rw [ofOption_some_bind]
      have hrest {w₁ : World} (h : Takes x w₀ (some s) w₁) :
          Ends (emit (.crossed .returned c.ownedTag) >>= fun _ => pure (some s)) w₁
            (fun o w₂ => Takes x w₀ o w₂) fun _ _ => True :=
        ends_bind (ends_of_respects (accepts_emit rfl)) fun _ _ h' => ends_pure (h.trans h')
      cases hdel : t.isSet Layout.del with
      | true =>
        rw [require_true, pure_bind]
        exact hrest (Or.inl rfl)
      | false =>
        have hm₀ : w₀.store.get? s = some m := by
          change (w₀.store.modify x _).get? s = some m at hm
          rw [Store.get?_modify] at hm
          split at hm
          · obtain ⟨k, -, rfl⟩ := Option.map_eq_some_iff.mp hm
            cases hstruct
          · exact hm
        refine ends_bind (ends_mono (ends_of_respects (rejections_check .undeletable))
          (fun _ _ h => h) fun _ _ _ => trivial) fun _ w₁ h₁ => ?_
        refine hrest (Or.inr (Or.inr ⟨s, rfl, ?_, h₁⟩))
        exact ⟨n, p, m, t, hn, he, htarget, hm₀, hstruct, hdel⟩

theorem ends_surrender (c : ProxyClass) (x : Id) :
    Ends (c.surrender x) w (fun o w' => Takes x w o w') fun _ _ => True := by
  have hrunning {w : World} : Ends (onUnwind requireRunning (dispose x)) w
      (fun _ w' => w'.store = w.store ∧ w.Accepts w') fun _ _ => True := by
    refine ends_onUnwind (V := fun _ _ => True) ?_ fun _ _ _ => ends_true
    refine ends_mono (ends_and_respects ends_requireRunning accepts_requireRunning)
      (fun _ _ h => ⟨h.1.1.store, h.2⟩) fun _ _ _ => trivial
  have hnone (failure : Failure) {w₁ : World} :
      Ends (check failure >>= fun _ => pure none) w₁ (fun o w₂ => Takes x w o w₂) fun _ _ => True :=
    ends_bind (P := fun _ _ => True) ends_true fun _ _ _ => ends_pure (Or.inr (Or.inl rfl))
  refine ends_bind hrunning fun _ w₁ h₁ => ?_
  refine ends_entity_bind fun n _ _ => ?_
  cases n.entity.reportedTag? with
  | none =>
    refine ends_ensuring (V := fun _ _ => True) (hnone _) (fun _ _ _ => ends_true) fun _ w₂ h₂ => ?_
    exact ends_mono (ends_of_respects (accepts_dispose x)) (fun _ _ h => h₂.trans h)
      fun _ _ _ => trivial
  | some found =>
    dsimp only
    split
    · exact ends_mono (c.ends_extract x) (fun _ _ h => h.of_accepts h₁.1 h₁.2) fun _ _ h => h
    · cases c.ownedDerived? found with
      | some d =>
        refine ends_bind hrunning fun _ w₂ h₂ => ?_
        refine ends_mono (d.ends_extract x) (fun _ _ h => ?_) fun _ _ h => h
        exact (h.of_accepts h₂.1 h₂.2).of_accepts h₁.1 h₁.2
      | none => exact ends_bind (P := fun _ _ => True) ends_true fun _ _ _ => hnone _

theorem accepts_takeTarget (x : Id) : Respects World.Accepts (takeTarget x) w := by
  refine respects_entity_bind fun n _ _ => ?_
  cases n.entity with
  | ownedProxy p => exact respects_map (accepts_put x _)
  | _ => exact respects_refuse _

end ProxyClass

end ObjectBoundary
