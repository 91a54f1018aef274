import ObjectBoundary.Act.Disposal
import ObjectBoundary.Act.References
import ObjectBoundary.Process
import ObjectBoundary.Proofs.Quiet

/-!
# What acts are composed of

Every act is composed of a few simple ones. None of these reads the log, and only failed checks
look at whether they are fatal. So what holds of the simple acts and survives composition holds of
everything that a process does, but for telling its settings.

* `Destructor`: what is destroyed while a failure unwinds.
* `Act.Composed`: acts that are composed of the simple ones.
* `World.Onward`: what no act takes back.
* `Composed.onward`: however a composed act ends, it has taken nothing back.
* `Composed.ends_fatal`: what unwinds out of it is a failed check that is fatal.
-/

namespace ObjectBoundary

/-! ## Vacant wrappers -/

/-- A wrapper whose owned object was taken back. -/
def Entity.isVacant : Entity → Bool
  | .ownedWrapper v => v.object.isNone
  | _ => false

theorem Entity.isVacant_withCount {e : Entity} (h : e.count?.isSome = true) (c : Count) :
    (e.withCount c).isVacant = false := by
  cases e <;> first | rfl | cases h

@[simp] theorem Entity.isVacant_withStruct (e : Entity) (s : Structure) :
    (e.withStruct s).isVacant = e.isVacant := by
  cases e <;> rfl

/-- An owned wrapper or proxy with nothing below it. -/
def Entity.isUnlinked : Entity → Bool
  | .ownedWrapper v => v.object.isNone
  | .ownedProxy p => p.target.isNone
  | _ => false

/-- A vacant wrapper that still exists. -/
def Node.IsVacant (n : Node) : Prop := n.live = true ∧ n.entity.isVacant = true

def Store.IsVacant (st : Store) (x : Id) : Prop := ∃ n, st.get? x = some n ∧ n.IsVacant

/-! ## Destructors -/

/-- What is destroyed while a failure unwinds. -/
inductive Destructor where
  /-- A handle gives up its reference. -/
  | handle (x : Id)
  /-- An owned object goes with what it owns. -/
  | owner (x : Id)
  /-- A guard fails a check of its own. -/
  | guard (text : String)

def Destructor.act : Destructor → Act Unit
  | handle x => Act.drop x
  | owner x => Act.dispose x
  | guard text => do
    Act.check (.stated text)
    Act.emit .guardDone

/-! ## Composed acts -/

namespace Act

/-- Acts that are composed of simple ones. A wrapper that loses its object is destroyed at
once. -/
inductive Composed : {α : Type} → Act α → Prop
  | pure {α : Type} (a : α) : Composed (Pure.pure a)
  | bind {α β : Type} {x : Act α} {f : α → Act β} :
    Composed x → (∀ a, Composed (f a)) → Composed (x >>= f)
  | refuse {α : Type} (m : Misuse) : Composed (refuse m : Act α)
  /-- The only act that ends the process by itself. -/
  | raise (x : Id) : Composed (raise x)
  /-- The settings and the log are out of sight. -/
  | look {α : Type} (view : Environment → Bool → Store → α) :
    Composed fun _ w => (.done (view w.environment w.isShutdown w.store), w)
  | consult : Composed (settings >>= fun s => Pure.pure s.shutdownChecks)
  | install (s : Settings) : Composed (install s)
  | shut : Composed (modify fun w => { w with isShutdown := true })
  | emit {e : Event} (h : e.isComplaint = false) : Composed (emit e)
  | check (failure : Failure) : Composed (check failure)
  | put (x : Id) {e : Entity} (h : e.isVacant = false) : Composed (put x e)
  | retire (x : Id) : Composed (retire x)
  | create (name : String) {e : Entity} (h : e.isVacant = false) : Composed (create name e)
  | change (x : Id) (f : Structure → Structure) :
    Composed (entity x >>= fun e => ofOption .wrongKind e.struct? >>= fun t =>
      put x (e.withStruct (f t)))
  | vacate (x : Id) (v : OwnedWrapper) : Composed (dispose x) →
    Composed (put x (.ownedWrapper { v with object := none }) >>= fun _ => dispose x)
  | contained {α : Type} {x : Act α} : Composed x → Composed (contained x)
  | onUnwind {α : Type} {x : Act α} (d : Destructor) :
    Composed x → Composed d.act → Composed (onUnwind x d.act)

end Act

/-! ## What no act takes back -/

namespace World

/-- What no act takes back: settings in force and the start of shutdown stay, what was logged is
logged, and no wrapper is left vacant. -/
structure Onward (w w' : World) : Prop where
  later : w.Later w'
  log : w.log <+: w'.log
  vacant : ∀ x, w'.store.IsVacant x → w.store.IsVacant x

instance : IsPreorder World Onward where
  refl w := ⟨refl_of Later w, List.prefix_refl _, fun _ h => h⟩
  trans _ _ _ h h' :=
    ⟨trans_of Later h.later h'.later, h.log.trans h'.log, fun x hx => h.vacant x (h'.vacant x hx)⟩

end World

namespace Act

variable {α β : Type} {w : World}

theorem onward_log (w : World) (e : Event) : w.Onward { w with log := w.log ++ [e] } :=
  ⟨⟨rfl, fun _ h => h, fun h => h⟩, List.prefix_append _ _, fun _ h => h⟩

theorem onward_emit (e : Event) : Respects World.Onward (emit e) w :=
  respects_modify (onward_log w e)

theorem onward_settings : Respects World.Onward settings w := by
  intro phase
  cases h : w.settings with
  | some s =>
    rw [settings_apply_of_some h]
    exact refl_of World.Onward w
  | none =>
    have later (l : List Event) (s : Settings) :
        w.Onward { w with settings := some s, log := w.log ++ l } := by
      refine ⟨⟨rfl, fun t ht => ?_, fun hd => hd⟩, List.prefix_append _ _, fun _ hx => hx⟩
      rw [h] at ht
      cases ht
    simp only [settings, bind_apply, get, h]
    rcases resolve w.environment with ⟨s, _ | e⟩
    · have := later [] s
      rw [List.append_nil] at this
      exact this
    · exact later [.fellBack e] s

theorem onward_check (failure : Failure) : Respects World.Onward (check failure) w := by
  apply respects_bind (onward_emit _)
  intro _ _ _
  apply respects_bind onward_settings
  intro s _ _
  split
  · exact respects_unwind _
  · exact respects_pure _

theorem onward_requireRunning : Respects World.Onward requireRunning w := by
  apply respects_bind onward_settings
  intro s _ _
  split
  · refine respects_bind respects_get fun w' _ _ => ?_
    unfold require
    split
    · exact respects_pure _
    · exact onward_check _
  · exact respects_pure _

/-- A change of the store that leaves no wrapper vacant. -/
theorem onward_store {w : World} {st : Store} (h : ∀ x, st.IsVacant x → w.store.IsVacant x) :
    w.Onward { w with store := st } :=
  ⟨⟨rfl, fun _ hs => hs, fun hd => hd⟩, List.prefix_refl _, h⟩

theorem isVacant_of_modify {st : Store} {x z : Id} {f : Node → Node}
    (hf : ∀ n, (f n).IsVacant → n.IsVacant) (h : (st.modify x f).IsVacant z) : st.IsVacant z := by
  obtain ⟨n, hn, hvacant⟩ := h
  rw [Store.get?_modify] at hn
  split at hn
  · obtain ⟨m, hm, rfl⟩ := Option.map_eq_some_iff.mp hn
    exact ⟨m, hm, hf m hvacant⟩
  · exact ⟨n, hn, hvacant⟩

theorem onward_put (x : Id) {e : Entity} (h : e.isVacant = false) :
    Respects World.Onward (put x e) w := by
  apply respects_modify
  apply onward_store
  intro z hz
  apply isVacant_of_modify (fun n hn => ?_) hz
  rw [Node.IsVacant, h] at hn
  exact absurd hn.2 Bool.false_ne_true

theorem onward_retire (x : Id) : Respects World.Onward (retire x) w := by
  refine respects_modify (onward_store fun z hz => isVacant_of_modify (fun n hn => ?_) hz)
  exact absurd hn.1 Bool.false_ne_true

theorem onward_raise (x : Id) : Respects World.Onward (raise x) w := by
  apply respects_entity_bind
  intro n _ _
  cases hc : n.entity.count? with
  | none => exact respects_refuse _
  | some c =>
    rw [ofOption_some_bind]
    apply respects_bind (onward_put x (Entity.isVacant_withCount (by rw [hc]; rfl) _))
    intro _ _ _
    apply respects_bind (onward_emit _)
    intro _ _ _
    split
    · exact respects_abort
    · exact respects_pure _

theorem onward_create (name : String) {e : Entity} (h : e.isVacant = false) :
    Respects World.Onward (create name e) w := by
  refine fun _ => onward_store fun z hz => ?_
  obtain ⟨n, hn, hvacant⟩ := hz
  rw [Store.get?_push] at hn
  split at hn
  · cases hn
    rw [Node.IsVacant, h] at hvacant
    exact absurd hvacant.2 Bool.false_ne_true
  · exact ⟨n, hn, hvacant⟩

theorem onward_change (x : Id) (f : Structure → Structure) :
    Respects World.Onward (entity x >>= fun e => ofOption .wrongKind e.struct? >>= fun t =>
      put x (e.withStruct (f t))) w := by
  apply respects_entity_bind
  intro n hn hlive
  cases n.entity.struct? with
  | none => exact respects_refuse _
  | some t =>
    refine respects_modify (onward_store ?_)
    rintro z ⟨m, hm, hvacant⟩
    rw [Store.get?_modify] at hm
    split at hm
    · rename_i hxz
      subst hxz
      rw [hn] at hm
      cases hm
      exact ⟨n, hn, hlive, by simpa using hvacant.2⟩
    · exact ⟨m, hm, hvacant⟩

/-- The disposal of an owned wrapper or proxy with nothing below it goes no further. -/
theorem dispose_unlinked {x : Id} {e : Entity} {name : String}
    (hn : w.store.get? x = some ⟨name, e, true⟩) (he : e.isUnlinked = true)
    (phase : Phase) : dispose x phase w = (retire x >>= fun _ => requireRunning) phase w := by
  obtain ⟨below, hbelow⟩ : ∃ below, w.store.chain x = x :: below := ⟨_, rfl⟩
  show disposeAlong (w.store.chain x) phase w = _
  rw [hbelow, disposeAlong, bind_apply, entity_apply hn rfl]
  cases e with
  | ownedWrapper v =>
    have hv : v.object = none := Option.isNone_iff_eq_none.mp he
    simp only [hv, Option.isSome_none, Bool.and_false, Bool.false_eq_true, if_false, bind_pure_unit]
  | ownedProxy p =>
    have hp : p.target = none := Option.isNone_iff_eq_none.mp he
    simp only [hp, bind_pure_unit]
  | _ => cases he

/-- A wrapper that loses its object ceases to exist with it. -/
theorem onward_vacate (x : Id) (v : OwnedWrapper) (h : ∀ w, Respects World.Onward (dispose x) w) :
    Respects World.Onward
      (put x (.ownedWrapper { v with object := none }) >>= fun _ => dispose x) w := by
  intro phase
  let e : Entity := .ownedWrapper { v with object := none }
  let w₁ : World := { w with store := w.store.modify x fun n => { n with entity := e } }
  show w.Onward (dispose x phase w₁).2
  have hput : w.Later w₁ := ⟨rfl, fun _ hs => hs, fun hd => hd⟩
  have hrest := h w₁ phase
  refine ⟨trans_of World.Later hput hrest.later, hrest.log, ?_⟩
  intro z hz
  by_cases hxz : x = z
  · subst hxz
    obtain ⟨n, hn, hvacant⟩ := hrest.vacant x hz
    have hn₁ := hn
    change (w.store.modify x fun n => { n with entity := e }).get? x = some n at hn
    rw [Store.get?_modify, if_pos rfl] at hn
    obtain ⟨m, hm, rfl⟩ := Option.map_eq_some_iff.mp hn
    have hlive : m.live = true := hvacant.1
    have hw₁ : w₁.store.get? x = some ⟨m.name, e, true⟩ := by rw [hn₁, hlive]
    -- What is left to do after the wrapper has ceased to exist does not bring it back.
    have hgone : Respects World.Onward requireRunning
        { w₁ with store := w₁.store.modify x fun n => { n with live := false } } :=
      onward_requireRunning
    rw [dispose_unlinked hw₁ rfl] at hz
    obtain ⟨k, hk, hkvacant⟩ := (hgone phase).vacant x hz
    change (w₁.store.modify x _).get? x = some k at hk
    rw [Store.get?_modify, if_pos rfl, hw₁] at hk
    cases hk
    exact absurd hkvacant.1 Bool.false_ne_true
  · obtain ⟨n, hn, hvacant⟩ := hrest.vacant z hz
    change (w.store.modify x _).get? z = some n at hn
    rw [Store.get?_modify, if_neg hxz] at hn
    exact ⟨n, hn, hvacant⟩

theorem onward_install (s : Settings) : Respects World.Onward (install s) w := by
  refine respects_get_bind ?_
  cases h : w.settings with
  | some t => exact respects_pure _
  | none =>
    have hset : w.Onward { w with settings := some s } := by
      refine ⟨⟨rfl, fun t ht => ?_, fun hd => hd⟩, List.prefix_refl _, fun _ hx => hx⟩
      rw [h] at ht
      cases ht
    exact fun phase => trans_of World.Onward hset (onward_log _ (.installed s))

/-- However a composed act ends, it has taken nothing back. -/
theorem Composed.onward {x : Act α} (h : Composed x) (w : World) :
    Respects World.Onward x w := by
  induction h generalizing w with
  | pure a => exact respects_pure a
  | bind _ _ ihx ihf => exact respects_bind (ihx w) fun a w' _ => ihf a w'
  | refuse m => exact respects_refuse m
  | raise x => exact onward_raise x
  | look view => exact fun _ => refl_of World.Onward w
  | consult => exact respects_map onward_settings
  | install s => exact onward_install s
  | shut =>
    exact respects_modify ⟨⟨rfl, fun _ h => h, fun _ => rfl⟩, List.prefix_refl _, fun _ h => h⟩
  | emit _ => exact onward_emit _
  | check failure => exact onward_check failure
  | put x h => exact onward_put x h
  | retire x => exact onward_retire x
  | create name h => exact onward_create name h
  | change x f => exact onward_change x f
  | vacate x v _ ih => exact onward_vacate x v ih
  | contained _ ih => exact respects_contained (ih w)
  | onUnwind _ _ _ ihx ihc => exact respects_onUnwind (ihx w) fun w' _ => ihc w'

/-- What follows an act takes nothing back of what it did. -/
theorem onward_bind {x : Act α} {f : α → Act β} (hf : ∀ a w, Respects World.Onward (f a) w)
    (phase : Phase) (w : World) : World.Onward (x phase w).2 ((x >>= f) phase w).2 := by
  rw [bind_apply]
  rcases x phase w with ⟨a | _ | _ | _, w₁⟩
  · exact hf a w₁ phase
  all_goals exact refl_of World.Onward w₁

theorem onward_onUnwind {x : Act α} {c : Act Unit} (hc : Composed c) (phase : Phase) (w : World) :
    World.Onward (x phase w).2 (onUnwind x c phase w).2 := by
  unfold onUnwind
  rcases x phase w with ⟨_ | e | _ | _, w₁⟩
  · exact refl_of World.Onward w₁
  · have hclean : Respects World.Onward (cleanUp e c : Act α) w₁ :=
      respects_cleanUp e (hc.onward w₁)
    exact hclean phase
  all_goals exact refl_of World.Onward w₁

/-- What unwinds is a failed check that is fatal, and checks stay so. -/
theorem Composed.ends_fatal {x : Act α} (h : Composed x) (w : World) :
    Ends x w (fun _ _ => True) fun _ w' => w'.IsFatal := by
  induction h generalizing w with
  | pure a => exact ends_pure trivial
  | bind _ _ ihx ihf => exact ends_bind (ihx w) fun a w' _ => ihf a w'
  | refuse m => exact ends_refuse
  | raise x =>
    refine ends_entity_bind fun n _ _ => ?_
    cases n.entity.count? with
    | none => exact ends_refuse
    | some c =>
      rw [ofOption_some_bind]
      refine ends_modify_bind (ends_modify_bind ?_)
      split
      · exact ends_abort
      · exact ends_pure trivial
  | look view => exact fun _ => trivial
  | consult => exact ends_bind ends_settings fun _ _ _ => ends_pure trivial
  | install s =>
    refine ends_get_bind ?_
    split
    · exact ends_pure trivial
    · exact ends_modify_bind (ends_modify_bind (ends_pure trivial))
  | check failure => exact ends_check_fatal
  | change x f =>
    refine ends_entity_bind fun n _ _ => ?_
    cases n.entity.struct? with
    | none => exact ends_refuse
    | some t => exact ends_modify trivial
  | create name _ => exact ends_get_bind (ends_modify_bind (ends_pure trivial))
  | vacate x v _ ih => exact ends_modify_bind (ih _)
  | contained _ ih => exact ends_contained (ih w)
  | onUnwind _ _ hc ihx _ =>
    refine ends_onUnwind (ihx w) fun _ w' hfatal => ?_
    refine ends_mono (ends_of_respects (hc.onward w')) (fun _ _ ho => ?_) fun _ _ _ => trivial
    exact ho.later.isFatal hfatal
  | _ => exact ends_modify trivial

/-- A failed check of the start of shutdown has disturbed the process for good. -/
theorem ends_disturbed {x : Act α} {e : Failure} (h : Composed x) (hd : World.Disturbed e w) :
    Ends x w (fun _ w' => World.Disturbed e w') fun _ _ => True :=
  ends_mono (ends_of_respects (h.onward w)) (fun _ _ ho => ⟨hd.1, ho.later.isBarred hd.2⟩)
    fun _ _ _ => trivial

/-! ## What the checks and looks are composed of -/

theorem composed_get_bind {γ : Type} (view : Environment → Bool → Store → γ) {f : γ → Act β}
    (h : ∀ c, Composed (f c)) :
    Composed (get >>= fun w => f (view w.environment w.isShutdown w.store)) :=
  (Composed.bind (.look view) h :)

theorem composed_entity_bind {x : Id} {f : Entity → Act β} (h : ∀ e, Composed (f e)) :
    Composed (entity x >>= f) := by
  have heq : entity x = get >>= fun w => (w.store.get? x).elim (refuse .unknown) fun n =>
      if n.live then pure n.entity else refuse .freed := by
    refine congrArg (get >>= ·) (funext fun w => ?_)
    cases w.store.get? x <;> rfl
  refine .bind ?_ h
  rw [heq]
  refine composed_get_bind (fun _ _ st => st.get? x) (f := fun o => o.elim _ _) fun o => ?_
  cases o with
  | none => exact .refuse _
  | some n =>
    rw [Option.elim_some]
    split
    · exact .pure _
    · exact .refuse _

theorem composed_require (condition : Bool) (failure : Failure) :
    Composed (require condition failure) := by
  unfold require
  split
  · exact .pure ()
  · exact .check failure

/-- Of the settings, only whether shutdown is checked for decides what is done. -/
theorem composed_whenChecked {x : Act Unit} (h : Composed x) :
    Composed (settings >>= fun s => if s.shutdownChecks then x else pure ()) := by
  have hconsult : Composed ((settings >>= fun s => pure s.shutdownChecks) >>= fun b =>
      if b then x else pure ()) := by
    refine .bind .consult fun b => ?_
    split
    · exact h
    · exact .pure ()
  simpa only [bind_assoc, pure_bind] using hconsult

theorem composed_requireRunning : Composed requireRunning :=
  composed_whenChecked (composed_get_bind (fun _ d _ => d) fun d => composed_require (!d) _)

theorem composed_signalShutdown : Composed signalShutdown := by
  apply composed_whenChecked
  refine composed_get_bind (fun _ d _ => d) (f := fun before => do
    modify fun w => { w with isShutdown := true }
    require (!before) .shutdownTwice
    emit .shutdownArmed) fun before => ?_
  exact .bind .shut fun _ => .bind (composed_require _ _) fun _ => .emit rfl

end Act

end ObjectBoundary
