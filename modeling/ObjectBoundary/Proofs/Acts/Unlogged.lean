import ObjectBoundary.Proofs.Acts.Twins

/-!
# The log makes no difference

What an act does is decided by the settings, the environment, the start of shutdown and the
entities. What was logged before is out of sight, so worlds that differ in nothing else lead to
such worlds again.

* `World.Alike`: worlds that differ at most in the log.
* `Composed.alike`: a composed act does the same in both.
-/

namespace ObjectBoundary

variable {α β : Type}

/-- Worlds that differ at most in the log. -/
inductive World.Alike : World → World → Prop
  | intro (e : Environment) (settings : Option Settings) (isShutdown : Bool) (st : Store)
    (log log' : List Event) :
    World.Alike ⟨e, settings, isShutdown, st, log⟩ ⟨e, settings, isShutdown, st, log'⟩

namespace World.Alike

variable {w w' : World}

theorem store (h : w.Alike w') : w'.store = w.store := by cases h; rfl

theorem refl (w : World) : w.Alike w := by
  cases w
  exact .intro ..

theorem symm (h : w.Alike w') : w'.Alike w := by
  cases h
  exact .intro ..

theorem withLog (h : w.Alike w') (log : List Event) : w.Alike { w' with log := log } := by
  cases h
  exact .intro ..

theorem modify (h : w.Alike w') (x : Id) (f : Node → Node) :
    World.Alike { w with store := w.store.modify x f }
      { w' with store := w'.store.modify x f } := by
  cases h
  exact .intro ..

end World.Alike

namespace Act

variable {w w' : World}

/-- Two runs end alike and lead to worlds that differ at most in the log. -/
def EndAlike (r r' : Outcome α × World) : Prop := r.1 = r'.1 ∧ r.2.Alike r'.2

theorem alike_bind {x y : Act α} {f g : α → Act β} {phase : Phase}
    (hx : EndAlike (x phase w) (y phase w'))
    (hf : ∀ a w₁ w₁', w₁.Alike w₁' → EndAlike (f a phase w₁) (g a phase w₁')) :
    EndAlike ((x >>= f) phase w) ((y >>= g) phase w') := by
  obtain ⟨houtcome, hworld⟩ := hx
  rw [bind_apply, bind_apply]
  generalize x phase w = r at houtcome hworld ⊢
  generalize y phase w' = r' at houtcome hworld ⊢
  obtain ⟨o, w₁⟩ := r
  obtain ⟨o', w₁'⟩ := r'
  change o = o' at houtcome
  subst houtcome
  cases o with
  | done a => exact hf a w₁ w₁' hworld
  | _ => exact ⟨rfl, hworld⟩

theorem alike_settings (h : w.Alike w') (phase : Phase) :
    EndAlike (settings phase w) (settings phase w') := by
  cases h with
  | intro e current isShutdown st log log' =>
    cases current with
    | some s =>
      rw [settings_apply_of_some rfl, settings_apply_of_some rfl]
      exact ⟨rfl, .intro ..⟩
    | none =>
      simp only [settings, bind_apply, get]
      rcases resolve e with ⟨s, _ | error⟩ <;> exact ⟨rfl, .intro ..⟩

theorem alike_check (h : w.Alike w') (failure : Failure) (phase : Phase) :
    EndAlike (check failure phase w) (check failure phase w') := by
  refine alike_bind (x := emit (.failed failure)) (y := emit (.failed failure)) ?_
    fun _ w₁ w₁' h₁ => alike_bind (alike_settings h₁ phase) fun s w₂ w₂' h₂ => ?_
  · cases h
    exact ⟨rfl, .intro ..⟩
  · cases s.fatalChecks with
    | false => exact ⟨rfl, h₂⟩
    | true => cases phase <;> exact ⟨rfl, h₂⟩

theorem alike_install (h : w.Alike w') (s : Settings) (phase : Phase) :
    EndAlike (install s phase w) (install s phase w') := by
  cases h with
  | intro e current isShutdown st log log' => cases current <;> exact ⟨rfl, .intro ..⟩

theorem alike_entity (h : w.Alike w') (x : Id) (phase : Phase) :
    EndAlike (entity x phase w) (entity x phase w') := by
  have hget : w'.store.get? x = w.store.get? x := by rw [h.store]
  simp only [entity, bind_apply, get, hget]
  cases w.store.get? x with
  | none => exact ⟨rfl, h⟩
  | some n => cases hlive : n.live <;> simp only [hlive] <;> exact ⟨rfl, h⟩

theorem alike_change (h : w.Alike w') (x : Id) (f : Structure → Structure) (phase : Phase) :
    let change : Act Unit := entity x >>= fun e => ofOption .wrongKind e.struct? >>= fun t =>
      put x (e.withStruct (f t))
    EndAlike (change phase w) (change phase w') := by
  refine alike_bind (alike_entity h x phase) fun e w₁ w₁' h₁ => ?_
  cases e.struct? with
  | none => exact ⟨rfl, h₁⟩
  | some t => exact ⟨rfl, h₁.modify x _⟩

theorem alike_raise (h : w.Alike w') (x : Id) (phase : Phase) :
    EndAlike (raise x phase w) (raise x phase w') := by
  refine alike_bind (alike_entity h x phase) fun e w₁ w₁' h₁ => ?_
  cases e.count? with
  | none => exact ⟨rfl, h₁⟩
  | some c =>
    cases h₁
    cases hfull : c.isFull <;> simp only [ofOption, pure_bind, hfull] <;> exact ⟨rfl, .intro ..⟩

/-- A composed act does the same in worlds that differ at most in the log. -/
theorem Composed.alike {x : Act α} (h : Composed x) (hw : w.Alike w') (phase : Phase) :
    EndAlike (x phase w) (x phase w') := by
  induction h generalizing w w' phase with
  | pure a => exact ⟨rfl, hw⟩
  | bind _ _ ihx ihf => exact alike_bind (ihx hw phase) fun a _ _ h₁ => ihf a h₁ phase
  | refuse m => exact ⟨rfl, hw⟩
  | raise x => exact alike_raise hw x phase
  | look view => cases hw; exact ⟨rfl, .intro ..⟩
  | consult => exact alike_bind (alike_settings hw phase) fun _ _ _ h₁ => ⟨rfl, h₁⟩
  | install s => exact alike_install hw s phase
  | shut => cases hw; exact ⟨rfl, .intro ..⟩
  | emit _ => cases hw; exact ⟨rfl, .intro ..⟩
  | check failure => exact alike_check hw failure phase
  | put x _ => exact ⟨rfl, hw.modify x _⟩
  | retire x => exact ⟨rfl, hw.modify x _⟩
  | create name _ => cases hw; exact ⟨rfl, .intro ..⟩
  | change x f => exact alike_change hw x f phase
  | vacate x v _ ih => exact ih (hw.modify x _) phase
  | contained _ ih =>
    obtain ⟨houtcome, hworld⟩ := ih hw phase
    rw [contained_eq, contained_eq]
    exact ⟨congrArg Outcome.contained houtcome, hworld⟩
  | @onUnwind α x d _ _ ihx ihc =>
    obtain ⟨houtcome, hworld⟩ := ihx hw phase
    unfold Act.onUnwind
    generalize x phase w = r at houtcome hworld ⊢
    generalize x phase w' = r' at houtcome hworld ⊢
    obtain ⟨o, w₁⟩ := r
    obtain ⟨o', w₁'⟩ := r'
    change o = o' at houtcome
    subst houtcome
    cases o with
    | unwound failure =>
      obtain ⟨hclean, hworld'⟩ := ihc hworld .unwinding
      dsimp only
      rw [cleanUp_eq, cleanUp_eq]
      exact ⟨congrArg (Outcome.cleanedUp failure) hclean, hworld'⟩
    | _ => exact ⟨rfl, hworld⟩

end Act

end ObjectBoundary
