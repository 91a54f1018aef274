import ObjectBoundary.Proofs.Acts.Owned
import ObjectBoundary.Proofs.Acts.Supervised
import ObjectBoundary.Proofs.References.Creation

/-!
# Shared objects cross the boundary

Wrapping an object and making a proxy of a structure hand a reference over from the one side to
the other, and unwrapping hands it back. Every crossing takes references before it gives any up.
Where the check of the start of shutdown fails, a reference may be lost; any other failure loses
just the handle that was to be given up.

* `World.GivesUp`: a reference was given up, and nothing else has happened.
* `ends_wrap`, `ends_unwrap`: a handle becomes a structure, and a structure a handle.
* `ends_receive`, `ends_giveBack`: the same for structures of the far side.
* `ends_retainTarget`, `ends_releaseTarget`: references to the structure of a proxy alone.
-/

namespace ObjectBoundary

open Act

variable {w : World} {x s : Id} {U : Failure → World → Prop}

/-! ## References on their way -/

/-- A reference to an entity was given up between two looks, and nothing else has happened. -/
def World.GivesUp (w w' : World) (x : Id) : Prop :=
  ∃ w₁ w₂, w.Quiet w₁ ∧ w₁.Released w₂ (w₁.below x) ∧ w₂.Quiet w'

namespace World

variable {w' : World}

theorem Quiet.trans_givesUp {w₁ : World} (hq : w.Quiet w₁) (h : w₁.GivesUp w' x) :
    w.GivesUp w' x := by
  obtain ⟨w₂, w₃, h₂, h₃, h'⟩ := h
  exact ⟨w₂, w₃, trans_of Quiet hq h₂, h₃, h'⟩

theorem Released.givesUp (h : w.Released w' (w.below x)) : w.GivesUp w' x :=
  ⟨w, w', refl_of Quiet w, h, refl_of Quiet w'⟩

theorem GivesUp.quiet {w₁ : World} (h : w.GivesUp w₁ x) (hq : w₁.Quiet w') : w.GivesUp w' x := by
  obtain ⟨w₂, w₃, h₂, h₃, h'⟩ := h
  exact ⟨w₂, w₃, h₂, h₃, trans_of Quiet h' hq⟩

theorem GivesUp.turns (h : w.GivesUp w' x) (hs : w.store.Sound) :
    w.Turns w' (credit (some x) (-1)) := by
  obtain ⟨w₁, w₂, h₁, h₂, h'⟩ := h
  exact h₁.turn hs ((Released.descends (h₁.store ▸ hs) h₂).quiet h')

end World

namespace Act

theorem ends_retain_ascends (hs : w.store.Sound) (x : Id) :
    Ends (retain x) w (fun _ w' => w.Ascends w' (credit (some x) 1)) U :=
  ends_mono (ends_retain hs.earlier x) (fun _ _ h => h.ascends hs) fun _ _ hu => hu

theorem ends_release_descends (hs : w.store.Sound) (x : Id) :
    Ends (release x) w (fun _ w' => w.Descends w' (credit (some x) (-1))) World.Disturbed :=
  ends_mono (ends_release hs x) (fun _ _ h => h.1.descends hs) fun _ _ hu => hu

theorem ends_drop_descends (hs : w.store.Sound) (x : Id) :
    Ends (drop x) w (fun _ w' => w.Descends w' (credit (some x) (-1))) World.Disturbed :=
  ends_mono (ends_drop hs x) (fun _ _ h => h.descends hs) fun _ _ hu => hu

/-- A reference to a structure is taken through its function member. A structure without it does
not count. -/
theorem ends_retain_through (hs : w.store.Sound) (hr : w.store.HasRole s .sharedStructure) :
    Ends (through s Layout.addRef () (retain s)) w
      (fun _ w' => w.Ascends w' (credit (some s) 1) ∧
        (w.store.isSet s Layout.addRef = false → w' = w)) U := by
  refine ends_through (V := U) (fun n t hn _ ht hset => ?_) fun n t hn _ ht hset => ?_
  · refine ends_mono (ends_retain_ascends hs s) (fun _ _ h => ⟨h, fun hf => ?_⟩) fun _ _ hu => hu
    rw [Store.isSet_eq hn ht, hset] at hf
    cases hf
  · refine ⟨⟨?_, (refl_of World.Quiet w).rises⟩, fun _ => rfl⟩
    apply (World.Moves.refl hs).congr
    intro z hz
    have hne : z ≠ s := by
      intro heq
      subst heq
      exact Store.not_accountable_of_not_isSet (Or.inl rfl) ((Store.isSet_eq hn ht _).trans hset)
        hr hz
    exact (credit_of_ne hne 1).symm

theorem ends_release_through (hs : w.store.Sound) (hr : w.store.HasRole s .sharedStructure) :
    Ends (through s Layout.release 0 (release s)) w
      (fun _ w' => w.Descends w' (credit (some s) (-1)) ∧
        (w.store.isSet s Layout.release = false → w' = w)) U := by
  refine ends_through (V := World.Disturbed) (fun n t hn _ ht hset => ?_) fun n t hn _ ht hset => ?_
  · refine ends_mono (ends_release_descends hs s) (fun _ _ h => ⟨h, fun hf => ?_⟩)
      fun _ _ hu => hu
    rw [Store.isSet_eq hn ht, hset] at hf
    cases hf
  · refine ⟨⟨?_, (refl_of World.Quiet w).falls⟩, fun _ => rfl⟩
    refine (World.Moves.refl hs).congr fun z hz => ?_
    have hne : z ≠ s := by
      rintro rfl
      exact Store.not_accountable_of_not_isSet (Or.inr rfl) ((Store.isSet_eq hn ht _).trans hset)
        hr hz
    exact (credit_of_ne hne (-1)).symm

/-- A new wrapper or proxy gets its first reference. -/
theorem ends_introduce {β : Type} {Q : β → World → Prop} {name : String} {e : Entity} {o : Id}
    {f : Id → Act β} (hs : w.store.Sound) (hf : Node.IsFresh ⟨name, e, true⟩ w.store o)
    (k : ∀ w', w.Ascends w' (credit (some w.store.size) 1) →
      (∃ n, w'.store.get? w.store.size = some n ∧ e.Continues n.entity) →
        Ends (f w.store.size) w' Q U) :
    Ends
      (do
        let x ← create name e
        retain x
        f x)
      w Q U := by
  have earlier := (hf.linked_push hs.linked).earlier
  let w₁ : World := { w with store := w.store.push ⟨name, e, true⟩ }
  refine ends_bind (P := fun a w' => a = w.store.size ∧ w' = w₁) (fun _ => ⟨rfl, rfl⟩) ?_
  intro _ _ hpost
  obtain ⟨rfl, rfl⟩ := hpost
  apply ends_bind (ends_retain (w := w₁) earlier _)
  intro _ w₂ h₂
  obtain ⟨hasc, hnew⟩ := h₂.ascends_of_push hs hf
  exact k w₂ hasc hnew

theorem ends_wrapperTag_bind {β : Type} {Q : β → World → Prop} {f : Tag → Act β}
    (h : ∀ n found, w.store.get? s = some n → n.entity.wrapperTag? = some found →
      Ends (f found) w Q U) : Ends (wrapperTag s >>= f) w Q U := by
  unfold wrapperTag
  rw [bind_assoc]
  apply ends_entity_bind
  intro n hn hlive
  cases hf : n.entity.wrapperTag? with
  | none => exact fun _ => trivial
  | some found => exact h n found hn hf

end Act

/-! ## Wrappers -/

namespace SharedClass

/-- A handle is exchanged for a new wrapper of its object. -/
theorem ends_wrap (c : SharedClass) (name : String) (hs : w.store.Sound)
    (hr : w.store.HasRole x .sharedObject) :
    Ends (c.wrap name x) w
      (fun a w' => w.Turns w' (credit (some a) 1 + credit (some x) (-1)) ∧
        ∃ n, w'.store.get? a = some n ∧
          (Entity.sharedWrapper ⟨c, x, c.newStruct, .zero⟩).Continues n.entity)
      World.Disturbed := by
  refine ends_ensuring (V := World.Disturbed) (P := fun a w' =>
    w.Ascends w' (credit (some a) 1) ∧ ∃ n, w'.store.get? a = some n ∧
      (Entity.sharedWrapper ⟨c, x, c.newStruct, .zero⟩).Continues n.entity) ?_
    (fun e w' hd => ends_disturbed (composed_drop x) hd) ?_
  · refine ends_bind (ends_mono ends_requireRunning (fun _ _ h => h.1) fun _ _ h => h.1)
      fun _ w₁ hq => ?_
    have hs₁ : w₁.store.Sound := hq.store ▸ hs
    refine ends_introduce hs₁ ⟨rfl, rfl, rfl, hq.store ▸ hr, rfl⟩ fun w₂ h₂ hnew => ?_
    refine ends_bind ends_crossed fun _ w₃ h₃ => ends_pure ⟨?_, h₃.store ▸ hnew⟩
    exact hq.trans_ascends hs (h₂.quiet h₃)
  · intro a w₁ hpost
    obtain ⟨h₁, n, hn, hnew⟩ := hpost
    refine ends_mono (ends_drop_descends h₁.sound x) (fun _ w₂ h₂ => ?_) fun _ _ hu => hu
    obtain ⟨n', hn', hcont⟩ := h₂.continues a n hn
    exact ⟨h₁.turn h₂, n', hn', hnew.trans hcont.entity⟩

/-- The object of a wrapper becomes a handle in exchange for a reference to the wrapper. -/
theorem ends_retrieve (c : SharedClass) (hs : w.store.Sound) (s : Id) :
    Ends (c.retrieve s) w
      (fun r w' => ∃ o, r = some o ∧ w.Turns w' (credit (some o) 1 + credit (some s) (-1)) ∧
        w'.store.HasRole o .sharedObject ∧ w'.store.HasRole s .sharedStructure)
      World.Disturbed := by
  refine ends_entity_bind fun n hn hlive => ?_
  obtain ⟨name, e, live⟩ := n
  cases e with
  | sharedWrapper v =>
    have hobject : w.store.HasRole v.object .sharedObject := (hs.linked s _ _ hn rfl).2
    have hstruct : w.store.HasRole s .sharedStructure := ⟨_, hn, rfl⟩
    apply ends_bind (ends_retain_ascends hs v.object)
    intro _ w₁ h₁
    have hrelease : Ends (onUnwind (discard (release s)) (drop v.object)) w₁
        (fun _ w₂ => w₁.Descends w₂ (credit (some s) (-1))) World.Disturbed := by
      refine ends_onUnwind (V := World.Disturbed) ?_
        fun e w' hd => ends_disturbed (composed_drop v.object) hd
      exact ends_mono (ends_discard (ends_release_descends h₁.sound s))
        (fun _ _ h => h.elim fun _ h => h) fun _ _ hu => hu
    apply ends_bind hrelease
    intro _ w₂ h₂
    apply ends_bind ends_crossed
    intro _ w₃ h₃
    apply ends_pure
    have hturn := h₁.turn (h₂.quiet h₃)
    exact ⟨v.object, rfl, hturn, hturn.continues.hasRole hobject, hturn.continues.hasRole hstruct⟩
  | _ => exact ends_refuse

theorem ends_unwrap (c : SharedClass) (hs : w.store.Sound) (s : Id) :
    Ends (c.unwrap s) w
      (fun r w' => w.Turns w' (credit r 1 + credit (r.map fun _ => s) (-1)) ∧
        ∀ o, r = some o → w'.store.HasRole o .sharedObject ∧ w'.store.HasRole s .sharedStructure)
      fun e w' => World.Disturbed e w' ∨ w.Turns w' 0 := by
  have hretrieve (d : SharedClass) {w₁ : World} (hq : w.Quiet w₁) : Ends (d.retrieve s) w₁
      (fun r w' => w.Turns w' (credit r 1 + credit (r.map fun _ => s) (-1)) ∧
        ∀ o, r = some o → w'.store.HasRole o .sharedObject ∧ w'.store.HasRole s .sharedStructure)
      fun e w' => World.Disturbed e w' ∨ w.Turns w' 0 := by
    refine ends_mono (d.ends_retrieve (hq.store ▸ hs) s) ?_ fun _ _ hu => Or.inl hu
    intro _ w₂ hpost
    obtain ⟨o, rfl, hturn, hroles⟩ := hpost
    refine ⟨hq.trans_turns hs hturn, ?_⟩
    intro _ heq
    cases heq
    exact hroles
  have hrunning {w₁ : World} (hq : w.Quiet w₁) : Ends requireRunning w₁ (fun _ w₂ => w.Quiet w₂)
      fun e w' => World.Disturbed e w' ∨ w.Turns w' 0 :=
    ends_mono ends_requireRunning (fun _ _ h => trans_of World.Quiet hq h.1) fun _ _ h => Or.inl h.1
  apply ends_bind (hrunning (refl_of World.Quiet w))
  intro _ w₁ h₁
  apply ends_wrapperTag_bind
  intro n found hn hf
  split
  · exact hretrieve c h₁
  · cases c.derived? found with
    | some d => exact ends_bind (hrunning h₁) fun _ w₂ h₂ => hretrieve d h₂
    | none =>
      refine ends_bind (P := fun _ w' => w.Turns w' 0) (ends_mono (ends_of_respects
        (respects_check _)) (fun _ _ h => ?_) fun _ _ h => Or.inr ?_) fun _ w₂ h₂ =>
          ends_pure ⟨h₂.of_eq (by simp), nofun⟩
      all_goals exact (trans_of World.Quiet h₁ h).turns hs

end SharedClass

/-! ## Proxies -/

namespace ProxyClass

theorem ends_receive (c : ProxyClass) (name : String) (hs : w.store.Sound)
    (hr : w.store.HasRole s .sharedStructure) :
    Ends (c.receive name s) w
      (fun p w' => w.Turns w' (credit (some p) 1 + credit (some s) (-1)) ∧
        w'.store.HasRole p .sharedObject) World.Disturbed := by
  refine ends_bind (ends_mono ends_requireRunning (fun _ _ h => h.1) fun _ _ h => h.1)
    fun _ w₁ hq => ?_
  have hs₁ : w₁.store.Sound := hq.store ▸ hs
  have hr₁ : w₁.store.HasRole s .sharedStructure := hq.store ▸ hr
  refine ends_introduce hs₁ ⟨rfl, rfl, rfl, hr₁, trivial⟩ fun w₂ h₂ hnew => ?_
  obtain ⟨n, hn, hcont⟩ := hnew
  have hrole : w₂.store.HasRole w₁.store.size .sharedObject := ⟨n, hn, hcont.role⟩
  apply ends_bind (ends_discard (ends_release_through h₂.sound (h₂.continues.hasRole hr₁)))
  intro _ w₃ hpost
  obtain ⟨-, h₃, -⟩ := hpost
  apply ends_bind ends_crossed
  intro _ w₄ h₄
  apply ends_pure
  have h₃₄ := h₃.quiet h₄
  exact ⟨(hq.trans_ascends hs h₂).turn h₃₄, h₃₄.continues.hasRole hrole⟩

/-- The structure of a proxy is handed out in exchange for a handle to the proxy. -/
theorem ends_handOut (c : ProxyClass) (hs : w.store.Sound) (x : Id) :
    Ends (c.handOut x) w
      (fun r w' => w.Turns w' (credit r 1 + credit (some x) (-1)) ∧
        ∀ t, r = some t → w'.store.HasRole t .sharedStructure) World.Disturbed := by
  refine ends_ensuring (V := fun _ _ => False) (P := fun r w' => w.Ascends w' (credit r 1) ∧
    ∀ t, r = some t → w'.store.HasRole t .sharedStructure) ?_ (fun _ _ hf => hf.elim) ?_
  · apply ends_entity_bind
    intro n hn hlive
    obtain ⟨name, e, live⟩ := n
    cases e with
    | sharedProxy p =>
      have hr : w.store.HasRole p.target .sharedStructure := (hs.linked x _ _ hn rfl).2
      dsimp only
      split
      · apply ends_bind (ends_retain_through hs hr)
        intro _ w₁ h₁
        refine ends_bind ends_crossed fun _ w₂ h₂ => ends_pure ⟨h₁.1.quiet h₂, ?_⟩
        intro _ heq
        cases heq
        exact h₂.store ▸ h₁.1.continues.hasRole hr
      · exact ends_refuse
    | _ => exact ends_refuse
  · intro r w₁ hpost
    obtain ⟨h₁, hrole⟩ := hpost
    refine ends_mono (ends_drop_descends h₁.sound x) (fun _ w₂ h₂ => ?_) fun _ _ hu => hu
    exact ⟨h₁.turn h₂, fun t ht => h₂.continues.hasRole (hrole t ht)⟩

theorem ends_giveBack (c : ProxyClass) (hs : w.store.Sound) (x : Id) :
    Ends (c.giveBack x) w
      (fun r w' => w.Turns w' (credit r 1 + credit (some x) (-1)) ∧
        ∀ t, r = some t → w'.store.HasRole t .sharedStructure)
      fun e w' => World.Disturbed e w' ∨ w.GivesUp w' x := by
  have hrunning {w₁ : World} (hq : w.Quiet w₁) : Ends (onUnwind requireRunning (drop x)) w₁
      (fun _ w₂ => w.Quiet w₂) fun e w' => World.Disturbed e w' ∨ w.GivesUp w' x := by
    refine ends_onUnwind (V := World.Disturbed) (ends_mono ends_requireRunning
      (fun _ _ h => trans_of World.Quiet hq h.1) fun _ _ h => h.1) fun e w₂ hd => ?_
    exact ends_mono (ends_disturbed (composed_drop x) hd) (fun _ _ h => Or.inl h) fun _ _ h => h
  have hhandOut (d : ProxyClass) {w₁ : World} (hq : w.Quiet w₁) : Ends (d.handOut x) w₁
      (fun r w' => w.Turns w' (credit r 1 + credit (some x) (-1)) ∧
        ∀ t, r = some t → w'.store.HasRole t .sharedStructure)
      fun e w' => World.Disturbed e w' ∨ w.GivesUp w' x :=
    ends_mono (d.ends_handOut (hq.store ▸ hs) x)
      (fun _ _ h => ⟨hq.trans_turns hs h.1, h.2⟩) fun _ _ hd => Or.inl hd
  have hdrop {w₁ : World} (hq : w.Quiet w₁) :
      Ends (drop x) w₁ (fun _ w₂ => w.GivesUp w₂ x) World.Disturbed :=
    ends_mono (ends_drop (hq.store ▸ hs) x) (fun _ _ h => hq.trans_givesUp h.givesUp)
      fun _ _ hd => hd
  have hnone {w' : World} (h : w.GivesUp w' x) : w.Turns w' (credit none 1 + credit (some x) (-1)) ∧
      ∀ t, none = some t → w'.store.HasRole t .sharedStructure :=
    ⟨(h.turns hs).of_eq (by simp), nofun⟩
  refine ends_bind (hrunning (refl_of World.Quiet w)) fun _ w₁ h₁ => ?_
  refine ends_entity_bind fun n hn hlive => ?_
  cases n.entity.reportedTag? with
  | none =>
    -- The handle is given up after the failed check, whether that unwinds or not.
    refine ends_ensuring (V := fun _ w' => w.Quiet w')
      (P := fun r w' => r = none ∧ w.Quiet w') ?_ (fun e w₂ hq => ?_) ?_
    · exact ends_bind (ends_of_quiet (respects_check _) h₁) fun _ w₂ hq => ends_pure ⟨rfl, hq⟩
    · exact ends_mono (hdrop hq) (fun _ _ h => Or.inr h) fun _ _ _ => trivial
    · intro _ w₂ hpost
      obtain ⟨rfl, hq⟩ := hpost
      exact ends_mono (hdrop hq) (fun _ w₃ h => hnone h) fun _ _ hd => Or.inl hd
  | some found =>
    dsimp only
    split
    · exact hhandOut c h₁
    · cases c.sharedDerived? found with
      | some d => exact ends_bind (hrunning h₁) fun _ w₂ h₂ => hhandOut d h₂
      | none =>
        refine ends_bind (ends_mono (hdrop h₁) (fun _ _ h => h)
          fun _ _ hd => Or.inl hd) fun _ w₂ h₂ => ?_
        refine ends_bind (ends_mono (ends_of_quiet (respects_check _) (refl_of World.Quiet w₂))
          (fun _ _ hq => hq) fun _ _ hq => Or.inr (h₂.quiet hq)) fun _ w₃ hq => ?_
        exact ends_pure (hnone (h₂.quiet hq))

/-! ## References to the structure alone -/

/-- A reference that a call through a function member moves, if the member is set. -/
theorem ends_retainTarget {p : SharedProxy} (hs : w.store.Sound)
    (hr : w.store.HasRole p.target .sharedStructure) :
    Ends (retainTarget p) w
      (fun _ w' => w.Turns w' (credit (w.store.callable p.target Layout.addRef) 1)) U := by
  refine ends_mono (ends_retain_through hs hr) (fun _ w' h => ?_) fun _ _ hu => hu
  cases hset : w.store.isSet p.target Layout.addRef with
  | true =>
    rw [Store.callable, hset]
    exact h.1.turns
  | false =>
    rw [h.2 hset, Store.callable, hset]
    exact (refl_of World.Quiet w).turns hs

theorem ends_releaseTarget {p : SharedProxy} (hs : w.store.Sound)
    (hr : w.store.HasRole p.target .sharedStructure) :
    Ends (releaseTarget p) w
      (fun _ w' => w.Turns w' (credit (w.store.callable p.target Layout.release) (-1))) U := by
  apply ends_bind (ends_release_through hs hr)
  intro _ w' h
  apply ends_pure
  cases hset : w.store.isSet p.target Layout.release with
  | true =>
    rw [Store.callable, hset]
    exact h.1.turns hs
  | false =>
    rw [h.2 hset, Store.callable, hset]
    exact (refl_of World.Quiet w).turns hs

theorem respects_askTarget (q : Question) (p : SharedProxy) :
    Respects World.Quiet (askTarget q p) w :=
  respects_map (respects_through fun _ _ => respects_ask q _)

end ProxyClass

end ObjectBoundary
