import ObjectBoundary.Act.Members
import ObjectBoundary.Proofs.Acts.Reports

/-!
# References after the start of shutdown

Taking, giving up and questioning references does not ask whether shutdown has begun. The check is
made for what ceases to exist meanwhile, once for each, and for nothing else.

* `Usage`: whether a function is about references or about the object.
* `World.Sparing`: reports tell of carriers that cease to exist and of nothing else.
* `sparing_retain`, `sparing_release`, `sparing_ask`, `sparing_dispose`: so it is with references.
* `sparing_call`: the base members of structures are no better.
* `reports_answer`, `reports_call`: who asks for what the object knows is reported.
-/

namespace ObjectBoundary

/-! ## What functions are about -/

/-- What a function of a wrapper or proxy is about. -/
inductive Usage where
  /-- The references to it, or its end. -/
  | ofReferences
  /-- What its object knows. -/
  | ofObject
deriving DecidableEq

/-- What the function member at a position of the structure of a wrapper is about. -/
def Entity.usage? (position : Nat) : Entity → Option Usage
  | .sharedWrapper _ => some (if position < Layout.sharedFirst then .ofReferences else .ofObject)
  | .ownedWrapper _ => some (if position < Layout.ownedFirst then .ofReferences else .ofObject)
  | _ => none

/-! ## Worlds in which little is reported -/

/-- No carrier was made, and each report tells of one that has ceased to exist. -/
structure World.Sparing (w w' : World) : Prop where
  later : w.Later w'
  preserves : w.store.Preserves w'.store
  size : w'.store.size = w.store.size
  spent : w.store.turnover + w'.reports ≤ w'.store.turnover + w.reports

namespace World

variable {w w' : World}

instance : IsPreorder World Sparing where
  refl w := ⟨refl_of Later w, .refl _, rfl, Nat.le_refl _⟩
  trans w w' w'' h h' := by
    refine ⟨trans_of Later h.later h'.later, h.preserves.trans h'.preserves,
      h'.size.trans h.size, ?_⟩
    have hs := h.spent
    have hs' := h'.spent
    omega

theorem Sparing.of_store (hl : w.Later w') (hs : w'.store = w.store)
    (hr : w'.reports = w.reports) : w.Sparing w' where
  later := hl
  preserves := hs ▸ .refl _
  size := congrArg Store.size hs
  spent := by rw [hs, hr]

/-- A change of one entity that makes no difference to what was made and what exists. -/
theorem Sparing.modify {x : Id} {n : Node} {f : Node → Node} (hn : w.store.get? x = some n)
    (hc : (f n).entity.isCarrier = n.entity.isCarrier) (hl : (f n).live = true → n.live = true)
    (ht : (f n).turnover = n.turnover) : w.Sparing { w with store := w.store.modify x f } where
  later := ⟨rfl, fun _ h => h, fun h => h⟩
  preserves := Store.preserves_modify hn hc hl
  size := Store.size_modify _ _ _
  spent := by
    have htotal := w.store.total_modify Node.turnover (f := f) hn
    show _ + w.reports ≤ (w.store.modify x f).total Node.turnover + w.reports
    unfold Store.turnover
    omega

theorem reports_eq (w : World) : w.reports = w.failures.count (.failed .heldAtShutdown) :=
  (List.count_filter rfl).symm

end World

namespace Act

variable {α : Type} {w : World} {x : Id} {n : Node}

/-! ## Simple acts -/

theorem sparing_emit {e : Event} (h : e ≠ .failed .heldAtShutdown) :
    Respects World.Sparing (emit e) w := by
  refine fun _ => .of_store (onward_log w e).later rfl ?_
  show (w.log ++ [e]).count _ = w.log.count _
  rw [List.count_append, List.count_singleton, beq_eq_false_iff_ne.mpr h]
  rfl

/-- An event changes no entity. -/
theorem sparing_emit_bind {e : Event} {f : Unit → Act α} (h : e ≠ .failed .heldAtShutdown)
    (hf : ∀ w', w'.store = w.store → Respects World.Sparing (f ()) w') :
    Respects World.Sparing (emit e >>= f) w := fun phase =>
  trans_of World.Sparing (sparing_emit (w := w) h phase) 
    (hf { w with log := w.log ++ [e] } rfl phase)

theorem sparing_settings : Respects World.Sparing settings w := by
  intro phase
  obtain ⟨w', h, hconsults⟩ := settings_apply phase w
  rw [h]
  refine .of_store hconsults.quiet.later hconsults.quiet.store ?_
  rw [World.reports_eq, World.reports_eq, hconsults.failures]

theorem sparing_require (condition : Bool) {failure : Failure} (h : failure ≠ .heldAtShutdown) :
    Respects World.Sparing (require condition failure) w := by
  unfold require
  split
  · exact respects_pure _
  · refine respects_bind (sparing_emit fun he => h (Event.failed.inj he)) fun _ _ _ => ?_
    refine respects_bind sparing_settings fun s _ _ => ?_
    split
    · exact respects_unwind _
    · exact respects_pure _

theorem sparing_put {e : Entity} (hn : w.store.get? x = some n)
    (hc : e.isCarrier = n.entity.isCarrier) : Respects World.Sparing (put x e) w := by
  refine respects_modify (.modify hn hc (fun h => h) ?_)
  unfold Node.turnover
  rw [hc]

/-- What is no carrier ceases to exist without a check. -/
theorem sparing_retire (hn : w.store.get? x = some n) (hc : n.entity.isCarrier = false) :
    Respects World.Sparing (retire x) w := by
  refine respects_modify (.modify hn rfl nofun ?_)
  have hgone : Node.turnover { n with live := false } = 0 := Node.turnover_of_not_isCarrier hc
  rw [hgone, Node.turnover_of_not_isCarrier hc]

/-- A carrier that ceases to exist is reported once. -/
theorem sparing_expire (hb : w.IsBarred) (hn : w.store.get? x = some n) (hlive : n.live = true)
    (hc : n.entity.isCarrier = true) :
    Respects World.Sparing (retire x >>= fun _ => requireRunning) w := by
  intro phase
  let w₁ : World := { w with store := w.store.modify x fun n => { n with live := false } }
  have hb₁ : w₁.IsBarred := hb
  show w.Sparing (requireRunning phase w₁).2
  rw [requireRunning_world hb₁ phase]
  refine ⟨⟨rfl, fun _ h => h, fun h => h⟩, Store.preserves_modify hn rfl nofun,
    Store.size_modify _ _ _, ?_⟩
  have hreports : World.reports { w₁ with log := w₁.log ++ [.failed .heldAtShutdown] } =
      w.reports + 1 := by
    simp [World.reports, w₁]
  have htotal := w.store.total_modify Node.turnover (f := fun n => { n with live := false }) hn
  have hgone : n.turnover = 1 ∧ Node.turnover { n with live := false } = 2 := by
    simp [Node.turnover, hc, hlive]
  rw [hreports]
  show w.store.total Node.turnover + _ ≤ (w.store.modify x _).total Node.turnover + _
  omega

theorem sparing_raise : Respects World.Sparing (raise x) w := by
  refine respects_entity_bind fun n hn _ => ?_
  cases hc : n.entity.count? with
  | none => exact respects_refuse _
  | some c =>
    rw [ofOption_some_bind]
    refine respects_bind (sparing_put hn (Entity.isCarrier_withCount _ _)) fun _ _ _ => ?_
    refine respects_bind (sparing_emit nofun) fun _ _ _ => ?_
    split
    · exact respects_abort
    · exact respects_pure _

theorem sparing_lower : Respects World.Sparing (lower x) w := by
  refine respects_entity_bind fun n hn _ => ?_
  cases hc : n.entity.count? with
  | none => exact respects_refuse _
  | some c =>
    rw [ofOption_some_bind]
    refine respects_bind (sparing_put hn (Entity.isCarrier_withCount _ _)) fun _ _ _ => ?_
    refine respects_bind (sparing_emit nofun) fun _ _ _ => ?_
    exact respects_map (sparing_require _ nofun)

/-- What has given a reference up still exists. -/
theorem ends_lower_live : Ends (lower x) w
    (fun _ w' => ∃ n, w'.store.get? x = some n ∧ n.live = true) fun _ _ => True := by
  refine ends_entity_bind fun n hn hlive => ?_
  cases n.entity.count? with
  | none => exact ends_refuse
  | some c =>
    rw [ofOption_some_bind]
    refine ends_modify_bind (ends_modify_bind (ends_bind (ends_mono
      (ends_of_respects (respects_require _ _)) (fun _ _ h => h) fun _ _ _ => trivial)
      fun _ w' h => ends_pure ?_))
    refine ⟨{ n with entity := n.entity.withCount c.pred }, ?_, hlive⟩
    rw [h.store]
    show (w.store.modify x _).get? x = _
    rw [Store.get?_modify, if_pos rfl, hn]
    rfl

/-! ## References -/

theorem sparing_retainAlong (xs : List Id) : Respects World.Sparing (retainAlong xs) w := by
  induction xs generalizing w with
  | nil => exact respects_refuse _
  | cons x below ih =>
    refine respects_entity_bind fun n hn _ => ?_
    cases he : n.entity with
    | sharedObject o => exact sparing_raise
    | sharedWrapper v => exact respects_bind ih fun _ _ _ => sparing_raise
    | sharedProxy p =>
      exact respects_bind (respects_through fun _ _ => ih) fun _ _ _ => sparing_raise
    | sharedFar f =>
      exact sparing_emit_bind nofun fun w' hw' => sparing_put (hw' ▸ hn) (by rw [he]; rfl)
    | _ => exact respects_refuse _

theorem sparing_retain (x : Id) : Respects World.Sparing (retain x) w :=
  respects_bind (respects_chain x) fun xs _ _ => sparing_retainAlong xs

theorem sparing_askAlong (q : Question) (xs : List Id) :
    Respects World.Sparing (askAlong q xs) w := by
  induction xs generalizing w with
  | nil => exact respects_refuse _
  | cons x below ih =>
    refine respects_entity_bind fun n _ _ => ?_
    cases n.entity with
    | sharedObject o => exact respects_pure _
    | sharedWrapper v => exact respects_map ih
    | sharedProxy p =>
      exact respects_map (respects_through fun _ _ => ih)
    | sharedFar f => exact respects_map (sparing_emit nofun)
    | _ => exact respects_refuse _

theorem sparing_ask (q : Question) (x : Id) : Respects World.Sparing (ask q x) w :=
  respects_bind (respects_chain x) fun xs _ _ => sparing_askAlong q xs

/-- What loses its last reference still exists until it is destroyed. -/
theorem sparing_last {t : Act Unit} (hb : w.IsBarred) (hn : w.store.get? x = some n)
    (ht : ∀ w' m, w'.IsBarred → w'.store.get? x = some m → m.live = true →
      m.entity.isCarrier = n.entity.isCarrier →
      Respects World.Sparing (retire x >>= fun _ => t) w') :
    Respects World.Sparing
      (do
        let last ← lower x
        if last then
          retire x
          t
        pure (truth last)) w := by
  intro phase
  have hlower := sparing_lower (w := w) (x := x) phase
  have hlive := ends_lower_live (w := w) (x := x) phase
  rw [bind_apply]
  generalize lower x phase w = r at hlower hlive ⊢
  rcases r with ⟨b | _ | _ | _, w₁⟩
  · obtain ⟨m, hm, hm'⟩ := hlive
    obtain ⟨m', hget, hc, -⟩ := hlower.preserves x n hn
    cases hm.symm.trans hget
    refine trans_of World.Sparing hlower ?_
    have hlast := ht w₁ m (hlower.later.isBarred hb) hm hm' hc
    cases b with
    | false => exact refl_of World.Sparing w₁
    | true =>
      have hrest : Respects World.Sparing
          ((retire x >>= fun _ => t) >>= fun _ => pure (truth true)) w₁ :=
        respects_map hlast
      rw [bind_assoc] at hrest
      exact hrest phase
  all_goals exact hlower

theorem sparing_releaseAlong (hb : w.IsBarred) (xs : List Id) :
    Respects World.Sparing (releaseAlong xs) w := by
  induction xs generalizing w with
  | nil => exact respects_refuse _
  | cons x below ih =>
    refine respects_entity_bind fun n hn _ => ?_
    -- A carrier is still one when all below it has been released.
    have carrier {w' : World} (hc : n.entity.isCarrier = true) (h : w.Sparing w') :
        Respects World.Sparing
          (do
            let last ← lower x
            if last then
              retire x
              requireRunning
            pure (truth last)) w' := by
      obtain ⟨n', hn', hc', -⟩ := h.preserves x n hn
      refine sparing_last (h.later.isBarred hb) hn' fun w₁ m hb₁ hm hlive hcm => ?_
      exact sparing_expire hb₁ hm hlive (hcm.trans (hc'.trans hc))
    cases he : n.entity with
    | sharedObject o =>
      refine sparing_last hb hn fun w₁ m _ hm _ hcm => ?_
      have hc : m.entity.isCarrier = false := by rw [hcm, he]; rfl
      exact respects_bind (sparing_retire hm hc) fun _ _ _ => sparing_emit nofun
    | sharedWrapper v =>
      exact respects_bind (respects_discard (ih hb)) fun _ _ h => carrier (by rw [he]; rfl) h
    | sharedProxy p =>
      refine respects_bind (respects_discard (respects_through fun w₁ h₁ => ?_)) fun _ _ h =>
        carrier (by rw [he]; rfl) h
      exact ih (h₁.later.isBarred hb)
    | sharedFar f =>
      refine sparing_emit_bind nofun fun w' hw' => ?_
      exact respects_map (sparing_put (hw' ▸ hn) (by rw [he]; rfl))
    | _ => exact respects_refuse _

theorem sparing_release (hb : w.IsBarred) (x : Id) : Respects World.Sparing (release x) w :=
  respects_bind (respects_chain x) fun xs _ h => sparing_releaseAlong (h.later.isBarred hb) xs

theorem sparing_drop (hb : w.IsBarred) (x : Id) : Respects World.Sparing (drop x) w :=
  respects_discard (sparing_release hb x)

/-! ## Disposal -/

theorem sparing_disposeAlong (hb : w.IsBarred) (xs : List Id) :
    Respects World.Sparing (disposeAlong xs) w := by
  induction xs generalizing w with
  | nil => exact respects_refuse _
  | cons x below ih =>
    refine respects_entity_bind fun n hn hlive => ?_
    have carrier {t : Act Unit} (hc : n.entity.isCarrier = true)
        (ht : ∀ w', w.Sparing w' → Respects World.Sparing t w') :
        Respects World.Sparing (retire x >>= fun _ => requireRunning >>= fun _ => t) w := by
      have hexpire := respects_bind (sparing_expire hb hn hlive hc) fun _ w' h => ht w' h
      rwa [bind_assoc] at hexpire
    cases he : n.entity with
    | ownedObject o =>
      exact respects_bind (sparing_retire hn (by rw [he]; rfl)) fun _ _ _ => sparing_emit nofun
    | ownedWrapper v =>
      refine carrier (by rw [he]; rfl) fun w' h => ?_
      split
      · exact ih (h.later.isBarred hb)
      · exact respects_pure _
    | ownedProxy p =>
      refine carrier (by rw [he]; rfl) fun w' h => ?_
      cases p.target with
      | none => exact respects_pure _
      | some s =>
        exact respects_through fun w₁ h₁ => ih (h₁.later.isBarred (h.later.isBarred hb))
    | ownedFar f =>
      exact sparing_emit_bind nofun fun w' hw' => sparing_put (hw' ▸ hn) (by rw [he]; rfl)
    | _ => exact respects_refuse _

theorem sparing_dispose (hb : w.IsBarred) (x : Id) : Respects World.Sparing (dispose x) w :=
  respects_bind (respects_chain x) fun xs _ h => sparing_disposeAlong (h.later.isBarred hb) xs

/-! ## Base members -/

theorem sparing_recognises (t : Tag) (s : Id) : Respects World.Sparing (recognises t s) w := by
  refine respects_bind (respects_bind (respects_entity s) fun _ _ _ => respects_ofOption _ _)
    fun _ _ _ => ?_
  exact respects_map (sparing_require _ nofun)

/-- The base member of a structure checks for shutdown only as what it does checks for it. -/
theorem sparing_baseMember {t : Tag} {receiver : Option Id} {otherwise : α} {f : Id → Act α}
    (hf : ∀ x w', w.Sparing w' → Respects World.Sparing (f x) w') :
    Respects World.Sparing (baseMember t receiver otherwise f) w := by
  refine respects_bind (sparing_require _ nofun) fun _ w₁ h₁ => ?_
  cases receiver with
  | none => exact respects_pure _
  | some s =>
    refine respects_bind (sparing_recognises t s) fun b w₂ h₂ => ?_
    split
    · exact hf s w₂ (trans_of World.Sparing h₁ h₂)
    · exact respects_pure _

/-- A function member that is about references reports no more than they do. -/
theorem sparing_call (hb : w.IsBarred) {s : Id} {position : Nat} {r : Option Id}
    (hn : w.store.get? s = some n) (hu : n.entity.usage? position = some .ofReferences) :
    Respects World.Sparing (call s position r) w := by
  refine respects_entity_bind fun m hm _ => ?_
  cases hn.symm.trans hm
  refine respects_bind (respects_ofOption _ _) fun t w₁ h₁ => ?_
  have hb₁ := h₁.later.isBarred hb
  split
  · cases he : n.entity with
    | sharedWrapper v =>
      refine respects_contained ?_
      rw [he] at hu
      match position, hu with
      | 0, _ =>
        exact respects_bind (sparing_baseMember fun x _ _ => sparing_retain x) fun _ _ _ =>
          respects_pure _
      | 1, _ =>
        refine respects_map (sparing_baseMember fun x _ h => ?_)
        exact sparing_release (h.later.isBarred hb₁) x
      | 2, _ | 3, _ =>
        exact respects_bind (sparing_baseMember fun x _ _ => sparing_ask _ x) fun _ _ _ =>
          respects_pure _
      | index + 4, hu => simp [Entity.usage?, Layout.sharedFirst] at hu
    | ownedWrapper v =>
      refine respects_contained ?_
      rw [he] at hu
      match position, hu with
      | 0, _ =>
        refine respects_map (sparing_baseMember fun x _ h => ?_)
        exact sparing_dispose (h.later.isBarred hb₁) x
      | index + 1, hu => simp [Entity.usage?, Layout.ownedFirst] at hu
    | _ =>
      rw [he] at hu
      cases hu
  · exact respects_pure _

/-! ## Questions to objects -/

variable {β : Type} {x : Act α} {f : α → Act β}

/-- The act reports that something was held at the start of shutdown, unless it is refused. -/
def Reports (x : Act α) (w : World) : Prop :=
  ∀ phase, w.reports < (x phase w).2.reports ∨ ∃ m, (x phase w).1 = .refused m

/-- What was reported stays so. -/
theorem Reports.bind (hx : Reports x w) (hf : ∀ a, Composed (f a)) : Reports (x >>= f) w := by
  intro phase
  have := hx phase
  rw [bind_apply]
  generalize x phase w = r at this ⊢
  rcases r with ⟨a | _ | _ | _, w₁⟩
  · rcases this with hreports | ⟨m, hm⟩
    · exact Or.inl (Nat.lt_of_lt_of_le hreports
        (((hf a).onward w₁ phase).log.sublist.count_le _))
    · cases hm
  · exact this.imp id fun ⟨m, hm⟩ => nomatch hm
  · exact this.imp id fun ⟨m, hm⟩ => nomatch hm
  · exact Or.inr ⟨_, rfl⟩

theorem reports_requireRunning (hb : w.IsBarred) : Reports requireRunning w := by
  intro phase
  left
  rw [requireRunning_world hb phase]
  simp [World.reports]

theorem reports_running_bind {f : Unit → Act β} (hb : w.IsBarred) (hf : Composed (f ())) :
    Reports (requireRunning >>= f) w :=
  (reports_requireRunning hb).bind fun _ => hf

theorem reports_entity_bind {y : Id} {f : Entity → Act β}
    (hf : ∀ n, w.store.get? y = some n → n.live = true → Reports (f n.entity) w) :
    Reports (entity y >>= f) w := by
  intro phase
  cases hn : w.store.get? y with
  | none =>
    simp only [entity, bind_apply, get, hn]
    exact Or.inr ⟨_, rfl⟩
  | some n =>
    cases hlive : n.live with
    | false =>
      simp only [entity, bind_apply, get, hn, hlive]
      exact Or.inr ⟨_, rfl⟩
    | true =>
      rw [bind_apply, entity_apply hn hlive]
      exact hf n hn hlive phase

theorem Reports.contained (hx : Reports x w) : Reports (contained x) w := by
  intro phase
  have := hx phase
  unfold Act.contained
  generalize x phase w = r at this ⊢
  rcases r with ⟨a | _ | _ | _, w₁⟩
  · exact this
  · exact this.imp id fun ⟨m, hm⟩ => nomatch hm
  · exact this
  · exact this

/-- A carrier that is asked for the value of its object checks for shutdown. -/
theorem reports_answer (hb : w.IsBarred) {y : Id} (hn : w.store.get? y = some n)
    (hc : n.entity.isCarrier = true) (index : Nat) : Reports (answer index y) w := by
  obtain ⟨below, hbelow⟩ : ∃ below, w.store.chain y = y :: below := ⟨_, rfl⟩
  show Reports (answerAlong index (w.store.chain y)) w
  rw [hbelow]
  have halong : Composed (answerAlong index below) :=
    composed_of_supervised fun _ _ => supervised_answerAlong index below
  have hchecked : Composed (requireRunning >>= fun _ => answerAlong index below) :=
    .bind composed_requireRunning fun _ => halong
  refine reports_entity_bind fun m hm _ => ?_
  cases hn.symm.trans hm
  cases he : n.entity with
  | sharedWrapper v =>
    dsimp only
    cases v.cls with
    | table _ _ => exact reports_running_bind hb halong
    | _ => exact reports_running_bind hb hchecked
  | ownedWrapper v => exact reports_running_bind hb hchecked
  | sharedProxy p =>
    refine reports_running_bind hb (composed_of_supervised fun _ _ => ?_)
    exact supervised_throughOffered (supervised_answerAlong index below)
  | ownedProxy p =>
    refine reports_running_bind hb ?_
    cases p.target with
    | none => exact .pure 0
    | some s =>
      refine composed_of_supervised fun _ _ => ?_
      exact supervised_throughOffered (supervised_answerAlong index below)
  | _ =>
    rw [he] at hc
    cases hc

theorem composed_found (index : Nat) (a : Int32) (o : Option Id) :
    Composed (match o with
      | some object => answer index object
      | none => pure a) := by
  cases o with
  | none => exact .pure a
  | some object => exact composed_of_supervised fun _ _ => supervised_answer index object

theorem reports_interfaceMember (hb : w.IsBarred) (t : Tag) (r : Option Id) (index : Nat) :
    Reports (interfaceMember t r index) w := by
  refine reports_running_bind hb (.bind (composed_require _ _) fun _ => ?_)
  cases r with
  | none => exact .pure 0
  | some s =>
    have hobject : Composed (objectOf t s) :=
      composed_of_supervised fun _ _ => supervised_objectOf t s
    exact .bind hobject (composed_found index 0)

theorem reports_tableMember (hb : w.IsBarred) (t : Tag) (s : Id) (index : Nat) :
    Reports (tableMember t (some s) index) w := by
  have hobject : Reports (objectOf t s) w := by
    refine reports_running_bind hb (.bind ?_ fun b => ?_)
    · exact composed_of_supervised fun _ _ => supervised_recognises t s
    · split
      · exact composed_entity_bind fun _ => .pure _
      · exact .pure none
  exact hobject.bind (composed_found index (-1))

/-- A function member that asks the object checks for shutdown, as long as it is called on a
structure. -/
theorem reports_call (hb : w.IsBarred) {s r : Id} {position : Nat} {t : Structure}
    (hn : w.store.get? s = some n) (ht : n.entity.struct? = some t)
    (hset : t.isSet position = true) (hu : n.entity.usage? position = some .ofObject) :
    Reports (call s position (some r)) w := by
  refine reports_entity_bind fun m hm _ => ?_
  cases hn.symm.trans hm
  rw [ht, ofOption_some_bind, if_pos hset]
  cases he : n.entity with
  | sharedWrapper v =>
    show Reports (Act.contained (sharedMember v.cls position (some r))) w
    refine Reports.contained ?_
    rw [he] at hu
    match position, hu with
    | index + 4, _ =>
      dsimp only [sharedMember]
      split
      · exact (reports_tableMember hb _ r index).bind fun _ => .pure _
      · exact (reports_interfaceMember hb _ _ index).bind fun _ => .pure _
  | ownedWrapper v =>
    show Reports (Act.contained (ownedMember v.cls position (some r))) w
    refine Reports.contained ?_
    rw [he] at hu
    match position, hu with
    | index + 1, _ => exact (reports_interfaceMember hb _ _ index).bind fun _ => .pure _
  | _ =>
    rw [he] at hu
    cases hu

end Act

end ObjectBoundary
