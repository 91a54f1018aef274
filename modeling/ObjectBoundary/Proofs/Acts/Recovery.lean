import ObjectBoundary.Proofs.Acts.Looking
import ObjectBoundary.Proofs.Acts.Supervised
import ObjectBoundary.Proofs.Acts.Unlogged
import ObjectBoundary.Proofs.References.Transfer
import ObjectBoundary.Proofs.Yields

/-!
# Recovering what was wrapped

A class recovers an object from a structure by the tag of the wrapper behind it. No two classes of
a flavour share a tag, so what a class recovers was wrapped by itself or, for the parent class, by
its child.

* `SharedClass.Recovers`, `OwnedClass.Recovers`: which classes recover what a class has wrapped.
* `Act.Finds`: an act finds something exactly if a condition holds.
* `finds_unwrap`, `finds_takeBack`, `finds_borrow`: recovery by the class or its parent.
* `finds_objectOf`, `finds_sharedInspect`, `finds_ownedInspect`: recognition by the class alone.
-/

namespace ObjectBoundary

/-! ## Classes and their tags -/

namespace SharedClass

def all : List SharedClass :=
  client :: child :: bareSharedTags.attach.map (fun t => bare t.1 t.2) ++
    tableWidths.attach.map fun width => table width.1 width.2

theorem mem_all (c : SharedClass) : c ∈ all := by
  cases c with
  | client => exact List.mem_cons_self
  | child => exact List.mem_cons_of_mem _ List.mem_cons_self
  | bare t ht =>
    refine List.mem_cons_of_mem _ (List.mem_cons_of_mem _ (List.mem_append_left _ ?_))
    exact List.mem_map.mpr ⟨⟨t, ht⟩, List.mem_attach _ _, rfl⟩
  | table width hwidth =>
    refine List.mem_cons_of_mem _ (List.mem_cons_of_mem _ (List.mem_append_right _ ?_))
    exact List.mem_map.mpr ⟨⟨width, hwidth⟩, List.mem_attach _ _, rfl⟩

/-- No two classes share a tag. -/
theorem tag_injective : Function.Injective tag := by
  have hall : ∀ c ∈ all, ∀ d ∈ all, c.tag = d.tag → c = d := by decide
  exact fun c d => hall c (mem_all c) d (mem_all d)

/-- A class recovers what it has wrapped itself, and the parent class what its child has. -/
def Recovers (c d : SharedClass) : Prop := c = d ∨ c = client ∧ d = child

instance (c d : SharedClass) : Decidable (c.Recovers d) := inferInstanceAs (Decidable (_ ∨ _))

/-- A class knows the tag of another one as its own, as that of its child, or not at all. -/
theorem recovers_cases (c d : SharedClass) :
    d.tag = c.tag ∧ c.Recovers d ∨
      d.tag ≠ c.tag ∧ c.derived? d.tag = some child ∧ d = child ∧ c.Recovers d ∨
      d.tag ≠ c.tag ∧ c.derived? d.tag = none ∧ ¬ c.Recovers d := by
  have htag : d.tag = Tag.sharedChild ↔ d = child := tag_injective.eq_iff (b := child)
  by_cases hsame : d.tag = c.tag
  · exact Or.inl ⟨hsame, Or.inl (tag_injective hsame).symm⟩
  · refine Or.inr ?_
    simp only [derived?, htag]
    by_cases hchild : c = client ∧ d = child
    · exact Or.inl ⟨hsame, if_pos hchild, hchild.2, Or.inr hchild⟩
    · refine Or.inr ⟨hsame, if_neg hchild, ?_⟩
      rintro (rfl | h)
      · exact hsame rfl
      · exact hchild h

end SharedClass

namespace OwnedClass

def all : List OwnedClass := client :: child :: bareOwnedTags.attach.map fun t => bare t.1 t.2

theorem mem_all (c : OwnedClass) : c ∈ all := by
  cases c with
  | client => exact List.mem_cons_self
  | child => exact List.mem_cons_of_mem _ List.mem_cons_self
  | bare t ht =>
    refine List.mem_cons_of_mem _ (List.mem_cons_of_mem _ ?_)
    exact List.mem_map.mpr ⟨⟨t, ht⟩, List.mem_attach _ _, rfl⟩

/-- No two classes share a tag. -/
theorem tag_injective : Function.Injective tag := by
  have hall : ∀ c ∈ all, ∀ d ∈ all, c.tag = d.tag → c = d := by decide
  exact fun c d => hall c (mem_all c) d (mem_all d)

def Recovers (c d : OwnedClass) : Prop := c = d ∨ c = client ∧ d = child

instance (c d : OwnedClass) : Decidable (c.Recovers d) := inferInstanceAs (Decidable (_ ∨ _))

/-- No class shares a tag with one of the other flavour. -/
theorem tag_ne_sharedTag (c : OwnedClass) (d : SharedClass) : c.tag ≠ d.tag := by
  have hall : ∀ c ∈ all, ∀ d ∈ SharedClass.all, c.tag ≠ d.tag := by decide
  exact hall c (mem_all c) d (SharedClass.mem_all d)

/-- A class knows the tag of another one as its own, as that of its child, or not at all. -/
theorem recovers_cases (c d : OwnedClass) :
    d.tag = c.tag ∧ c.Recovers d ∨
      d.tag ≠ c.tag ∧ c.derived? d.tag = some child ∧ d = child ∧ c.Recovers d ∨
      d.tag ≠ c.tag ∧ c.derived? d.tag = none ∧ ¬ c.Recovers d := by
  have htag : d.tag = Tag.ownedChild ↔ d = child := tag_injective.eq_iff (b := child)
  by_cases hsame : d.tag = c.tag
  · exact Or.inl ⟨hsame, Or.inl (tag_injective hsame).symm⟩
  · refine Or.inr ?_
    simp only [derived?, htag]
    by_cases hchild : c = client ∧ d = child
    · exact Or.inl ⟨hsame, if_pos hchild, hchild.2, Or.inr hchild⟩
    · refine Or.inr ⟨hsame, if_neg hchild, ?_⟩
      rintro (rfl | h)
      · exact hsame rfl
      · exact hchild h

end OwnedClass

/-! ## Acts that find something -/

namespace Act

variable {α β : Type} {w : World} {found stuck : Prop} {P : α → Prop}

/-- An act finds something exactly if a condition holds, and what it finds is as it should be. It
is refused only if there is something to be found and an obstacle. -/
def Finds (x : Act (Option α)) (w : World) (found : Prop) (P : α → Prop) (stuck : Prop) : Prop :=
  ∀ phase, match (x phase w).1 with
    | .done (some a) => found ∧ P a
    | .done none | .unwound _ => ¬ found
    | .aborted _ => False
    | .refused _ => found ∧ stuck

theorem finds_mono {x : Act (Option α)} {found' stuck' : Prop}
    (h : Finds x w found P stuck) (hfound : found ↔ found') (hstuck : stuck → stuck') :
    Finds x w found' P stuck' := by
  intro phase
  have := h phase
  generalize x phase w = r at this ⊢
  rcases r with ⟨(_ | a) | _ | _ | _, w'⟩
  · exact fun hf => this (hfound.mpr hf)
  · exact ⟨hfound.mp this.1, this.2⟩
  · exact fun hf => this (hfound.mpr hf)
  · exact this
  · exact ⟨hfound.mp this.1, hstuck this.2⟩

theorem finds_bind {x : Act β} {b : β} {f : β → Act (Option α)} (hx : Yields x w b)
    (hf : ∀ w', w.Quiet w' → Finds (f b) w' found P stuck) :
    Finds (x >>= f) w found P stuck := by
  intro phase
  obtain ⟨w', hw', hq⟩ := hx phase
  rw [bind_apply, hw']
  exact hf w' hq phase

theorem finds_entity_bind {y : Id} {n : Node} {f : Entity → Act (Option α)}
    (hn : w.store.get? y = some n) (hlive : n.live = true)
    (h : Finds (f n.entity) w found P stuck) : Finds (entity y >>= f) w found P stuck := by
  intro phase
  rw [bind_apply, entity_apply hn hlive]
  exact h phase

theorem finds_none (h : ¬ found) : Finds (pure none) w found P stuck := fun _ => h

theorem finds_of_yields {x : Act (Option α)} {a : α} (hx : Yields x w (some a)) (h : found)
    (ha : P a) : Finds x w found P stuck := by
  intro phase
  obtain ⟨w', hw', -⟩ := hx phase
  rw [hw']
  exact ⟨h, ha⟩

/-- What runs unless there is an obstacle finds what it ends with. -/
theorem finds_of_runs {x : Act (Option α)} (hx : Runs x w stuck)
    (hends : Ends x w (fun r _ => ∃ a, r = some a ∧ P a) fun _ _ => True) (h : found) :
    Finds x w found P stuck := by
  intro phase
  rcases hx phase with ⟨r, w', hr⟩ | ⟨hstuck, m, w', hm⟩
  · obtain ⟨a, rfl, ha⟩ := ends_of_done hends hr
    rw [hr]
    exact ⟨h, ha⟩
  · rw [hm]
    exact ⟨h, hstuck⟩

/-- A failed check unwinds or is passed over. -/
theorem finds_check_bind {failure : Failure} {f : Unit → Act (Option α)} (h : ¬ found)
    (hf : ∀ w', Finds (f ()) w' found P stuck) :
    Finds (check failure >>= f) w found P stuck := by
  intro phase
  obtain ⟨w', hw', -⟩ := settings_apply phase { w with log := w.log ++ [.failed failure] }
  cases hfatal : World.inForce { w with log := w.log ++ [.failed failure] } |>.fatalChecks with
  | false =>
    have := hf w' phase
    simp only [check, bind_apply, emit, modify, hw', hfatal]
    exact this
  | true =>
    cases phase with
    | normal =>
      simp only [check, bind_apply, emit, modify, hw', hfatal]
      exact h
    | unwinding =>
      have := hf w' .unwinding
      simp only [check, bind_apply, emit, modify, hw', hfatal]
      exact this

/-! ## Recognition -/

section Recognition

variable {s : Id} {n : Node} {t : Tag} (hn : w.store.get? s = some n) (hlive : n.live = true)
  (ht : n.entity.wrapperTag? = some t)
include hn hlive ht

/-- An act that goes on where a class recognises a structure. -/
theorem finds_recognises_bind {expected : Tag} {x : Act (Option α)}
    (hsame : t = expected → ∀ w', w.Quiet w' → Finds x w' found P stuck)
    (hother : t ≠ expected → ¬ found) :
    Finds (recognises expected s >>= fun b => if b = true then x else pure none) w found P
      stuck := by
  by_cases h : t = expected
  · subst h
    exact finds_bind (yields_recognises hn hlive ht) (hsame rfl)
  · have hbeq : (t == expected) = false := beq_eq_false_iff_ne.mpr h
    unfold recognises
    rw [bind_assoc]
    refine finds_bind (yields_wrapperTag hn hlive ht) fun w' _ => ?_
    rw [hbeq, bind_assoc]
    exact finds_check_bind (hother h) fun _ => finds_none (hother h)

theorem finds_objectOf (hw : w.IsTolerant) {o : Id} (ho : n.entity.below? = some o)
    (expected : Tag) : Finds (objectOf expected s) w (t = expected) (· = o) False := by
  refine finds_bind (yields_requireRunning hw) fun w₁ h₁ => ?_
  rw [← h₁.store] at hn
  refine finds_recognises_bind hn hlive ht (fun h w₂ h₂ => ?_) id
  rw [← h₂.store] at hn
  refine finds_of_yields (a := o) ?_ h rfl
  rw [← ho]
  exact yields_entity_bind hn hlive (yields_pure _ w₂)

end Recognition

/-! ## The check of the start of shutdown -/

/-- The check brings the settings into force. -/
theorem requireRunning_settings (h : w.IsTolerant) (phase : Phase) :
    ∃ w', requireRunning phase w = (.done (), w') ∧ w.Quiet w' ∧ w'.settings.isSome = true := by
  obtain ⟨w', hw', hq⟩ := yields_requireRunning h phase
  obtain ⟨w₁, h₁, hc⟩ := settings_apply phase w
  refine ⟨w', hw', hq, ?_⟩
  have hrest : w₁.Quiet w' := by
    have hresp : Respects World.Quiet (if w.inForce.shutdownChecks = true then
        get >>= fun w => require (!w.isShutdown) .heldAtShutdown else pure ()) w₁ := by
      split
      · exact respects_bind respects_get fun _ _ _ => respects_require _ _
      · exact respects_pure _
    have heq : requireRunning phase w = (if w.inForce.shutdownChecks = true then
        get >>= fun w => require (!w.isShutdown) .heldAtShutdown else pure ()) phase w₁ := by
      rw [requireRunning, bind_apply, h₁]
    have := hresp phase
    rwa [← heq, hw'] at this
  rw [hrest.later.settings _ hc.settings]
  rfl

/-- A quiet change with settings in force is one of the log. -/
theorem alike_of_quiet {w' : World} (h : w.Quiet w') (hs : w.settings.isSome = true) :
    w.Alike w' := by
  obtain ⟨s, hs⟩ := Option.isSome_iff_exists.mp hs
  obtain ⟨e, settings, isShutdown, st, log⟩ := w
  obtain ⟨e', settings', isShutdown', st', log'⟩ := w'
  cases h.later.environment
  cases h.store
  cases h.isShutdown
  cases hs.trans (h.later.settings s hs).symm
  exact .intro ..

/-- Once the settings are in force, the check makes no difference to the act that follows. -/
theorem alike_running_bind {x : Act α} (hx : Composed x) (h : w.IsTolerant)
    (hs : w.settings.isSome = true) (phase : Phase) :
    EndAlike ((requireRunning >>= fun _ => x) phase w) (x phase w) := by
  obtain ⟨w', hw', hq⟩ := yields_requireRunning h phase
  obtain ⟨houtcome, hworld⟩ := hx.alike (alike_of_quiet hq hs) phase
  rw [bind_apply, hw']
  exact ⟨houtcome.symm, hworld.symm⟩

/-! ## Questions -/

/-- Only what is missing from a chain keeps a question from being answered. -/
theorem runs_askAlong (hl : w.store.Linked) (q : Question) (x : Id) :
    Runs (askAlong q (w.store.chain x)) w (¬ w.store.Upheld (w.store.chain x)) := by
  refine runs_along (askAlong.eq_2 q) hl x fun x n stuck hx hn hlive hkind hbelow => ?_
  obtain ⟨name, e, live⟩ := n
  cases e with
  | sharedObject o => exact runs_pure _ _
  | sharedWrapper v =>
    obtain ⟨-, hruns, -⟩ := hbelow v.object rfl
    exact runs_bind hruns ends_true fun _ _ _ => runs_pure _ _
  | sharedProxy p =>
    obtain ⟨-, hruns, hgone⟩ := hbelow p.target rfl
    obtain ⟨m, t, hm, ht⟩ := hl.target hn
    exact runs_bind (runs_through hm ht (hgone m hm) hruns) ends_true fun _ _ _ => runs_pure _ _
  | sharedFar f =>
    apply Does.runs
    exact does_modify_bind (does_pure _ _)
  | _ => exact runs_refuse _ (hkind rfl)

theorem runs_ask (hl : w.store.Linked) (q : Question) (x : Id) :
    Runs (ask q x) w (¬ w.store.Upheld (w.store.chain x)) :=
  runs_askAlong hl q x

end Act

/-! ## Wrappers of shared objects -/

open Act

variable {w : World} {s : Id} {name : String}

namespace SharedClass

section Shared

variable {v : SharedWrapper} (hn : w.store.get? s = some ⟨name, .sharedWrapper v, true⟩)
  (hs : w.store.Sound)
include hn hs

/-- Only what is missing below a wrapper keeps its object from being retrieved. -/
theorem runs_retrieve (d : SharedClass) (ht : w.IsTolerant)
    (hr : w.store.CanRise (w.store.chain v.object)) :
    Runs (d.retrieve s) w (¬ w.store.Upheld (w.store.chain s)) := by
  have hchain : w.store.chain s = s :: w.store.chain v.object :=
    Store.chain_of_below hs.earlier hn rfl
  refine runs_entity_bind (fun h => absurd (h _ hn) Bool.noConfusion) fun m hm _ => ?_
  cases hn.symm.trans hm
  have hretain : Runs (retain v.object) w (¬ w.store.Upheld (w.store.chain s)) :=
    runs_mono (runs_retain hs.linked hr) fun hnot hup =>
      hnot (hup.mono fun y hy => hchain ▸ List.mem_cons_of_mem s hy)
  refine runs_bind hretain (ends_retain (U := fun _ _ => True) hs.earlier v.object)
    fun _ w₁ h₁ => ?_
  have hs₁ : w₁.store.Sound := (h₁.moves hs).sound
  have hmissing : ¬ w₁.store.Upheld (w₁.store.chain s) → ¬ w.store.Upheld (w.store.chain s) := by
    intro hnot hup
    rw [h₁.adjusted.store, Store.chain_modifyAll _ _ fun n => Entity.below?_raised n.entity] at hnot
    exact hnot (hup.raised _)
  refine runs_bind (runs_onUnwind _ (runs_discard (runs_mono
    (runs_release hs₁ (h₁.adjusted.isTolerant ht) s) hmissing))) ends_true fun _ w₂ _ => ?_
  apply Does.runs
  exact does_modify_bind (does_pure _ _)

theorem finds_retrieve {found : Prop} (d : SharedClass) (ht : w.IsTolerant)
    (hr : w.store.CanRise (w.store.chain v.object)) (h : found) :
    Finds (d.retrieve s) w found (· = v.object) (¬ w.store.Upheld (w.store.chain s)) := by
  refine finds_of_runs (runs_retrieve hn hs d ht hr) ?_ h
  refine ends_entity_bind fun m hm _ => ?_
  cases hn.symm.trans hm
  refine ends_bind ends_true fun _ _ _ => ends_bind ends_true fun _ _ _ => ?_
  exact ends_bind ends_true fun _ _ _ => ends_pure ⟨v.object, rfl, rfl⟩

theorem finds_unwrap (c : SharedClass) (ht : w.IsTolerant)
    (hr : w.store.CanRise (w.store.chain v.object)) :
    Finds (c.unwrap s) w (c.Recovers v.cls) (· = v.object)
      (¬ w.store.Upheld (w.store.chain s)) := by
  have hretrieve (d : SharedClass) {w' : World} (hq : w.Quiet w') (h : c.Recovers v.cls) :
      Finds (d.retrieve s) w' (c.Recovers v.cls) (· = v.object)
        (¬ w.store.Upheld (w.store.chain s)) := by
    have key := finds_retrieve (w := w') (hq.store ▸ hn) (hq.store ▸ hs) d (hq.isTolerant ht)
      (hq.store ▸ hr) h
    rwa [hq.store] at key
  refine finds_bind (yields_requireRunning ht) fun w₁ h₁ => ?_
  have hn₁ := h₁.store.symm ▸ hn
  refine finds_bind (yields_wrapperTag hn₁ rfl rfl) fun w₂ h₂ => ?_
  have hq := trans_of World.Quiet h₁ h₂
  rcases c.recovers_cases v.cls with ⟨htag, h⟩ | ⟨htag, hderived, -, h⟩ | ⟨htag, hderived, h⟩
  · rw [if_pos htag]
    exact hretrieve c hq h
  · rw [if_neg htag, hderived]
    refine finds_bind (yields_requireRunning (hq.isTolerant ht)) fun w₃ h₃ => ?_
    exact hretrieve child (trans_of World.Quiet hq h₃) h
  · rw [if_neg htag, hderived]
    exact finds_check_bind h fun _ => finds_none h

omit hs in
/-- The parent class unwraps as the child does that made the wrapper. -/
theorem unwrap_parent (hcls : v.cls = child) (ht : w.IsTolerant) (phase : Phase) :
    EndAlike (client.unwrap s phase w) (child.unwrap s phase w) := by
  obtain ⟨w₁, hw₁, hq, hsettings⟩ := requireRunning_settings ht phase
  have htag : wrapperTag s phase w₁ = (.done child.tag, w₁) := by
    rw [wrapperTag, bind_apply, entity_apply (hq.store ▸ hn) rfl, ← hcls]
    rfl
  unfold unwrap
  rw [bind_apply, hw₁, bind_apply (x := requireRunning), hw₁]
  dsimp only
  rw [bind_apply, htag, bind_apply, htag]
  have hretrieve : Composed (child.retrieve s) :=
    composed_of_supervised fun _ _ => child.supervised_retrieve s
  exact alike_running_bind hretrieve (hq.isTolerant ht) hsettings phase

/-- What the class that made a wrapper finds out about it. -/
theorem finds_sharedInspect (c : SharedClass) :
    Finds (c.inspect s) w (v.cls = c)
      (fun r => r.tag = v.cls.tag ∧ r.object = w.store.nameOf v.object)
      (¬ w.store.Upheld (w.store.chain s)) := by
  refine finds_recognises_bind hn rfl rfl (fun htag w' hq => ?_) fun htag h => htag (h ▸ rfl)
  have hl : w.store.Linked := hs.linked
  rw [← hq.store] at hn hl ⊢
  refine finds_of_runs ?_ ?_ (tag_injective htag)
  · refine runs_entity_bind (fun h => absurd (h _ hn) Bool.noConfusion) fun m hm _ => ?_
    cases hn.symm.trans hm
    refine runs_bind (runs_ask hl .unique s) (ends_of_respects (respects_ask _ _)) fun _ w₁ h₁ => ?_
    rw [← h₁.store] at hl ⊢
    refine runs_bind (runs_ask hl .referenced s) ends_true fun _ w₂ _ => ?_
    apply Does.runs
    exact does_get_bind (does_pure _ _)
  · refine ends_entity_bind fun m hm _ => ?_
    cases hn.symm.trans hm
    have hq' : Ends (ask .unique s) w' (fun _ w₁ => w'.Quiet w₁) fun _ _ => True :=
      ends_mono (ends_of_respects (respects_ask _ _)) (fun _ _ h => h) fun _ _ _ => trivial
    refine ends_bind hq' fun _ w₁ h₁ => ?_
    have hq'' : Ends (ask .referenced s) w₁ (fun _ w₂ => w₁.Quiet w₂) fun _ _ => True :=
      ends_mono (ends_of_respects (respects_ask _ _)) (fun _ _ h => h) fun _ _ _ => trivial
    refine ends_bind hq'' fun _ w₂ h₂ => ?_
    refine ends_get_bind (ends_pure ⟨_, rfl, rfl, ?_⟩)
    show w₂.store.nameOf v.object = w'.store.nameOf v.object
    rw [h₂.store, h₁.store]

end Shared

end SharedClass

/-! ## Wrappers of owned objects -/

namespace OwnedClass

section Owned

variable {v : OwnedWrapper} {o : Id} (hn : w.store.get? s = some ⟨name, .ownedWrapper v, true⟩)
  (ho : v.object = some o)
include hn ho

/-- An object is taken back from a wrapper that owns it, and then the wrapper is gone. -/
theorem finds_retrieve {found : Prop} (d : OwnedClass) (ht : w.IsTolerant) (h : found) :
    Finds (d.retrieve s) w (found ∧ v.owns = true) (· = o) False := by
  obtain ⟨cls, object, struct, owns⟩ := v
  cases owns with
  | false =>
    have hnot : ¬ (found ∧ false = true) := fun h => Bool.noConfusion h.2
    refine finds_entity_bind hn rfl ?_
    exact finds_check_bind hnot fun _ => finds_none hnot
  | true =>
    let v' : OwnedWrapper := ⟨cls, none, struct, true⟩
    let w' : World :=
      { w with store := w.store.modify s fun n => { n with entity := .ownedWrapper v' } }
    have hvacant : w'.store.get? s = some ⟨name, .ownedWrapper v', true⟩ := by
      rw [Store.get?_modify, if_pos rfl, hn]
      rfl
    have hdispose : Does (dispose s) w' := by
      intro phase
      rw [dispose_unlinked hvacant rfl]
      have hrunning := does_requireRunning (w := { w' with
        store := w'.store.modify s fun n => { n with live := false } }) ht
      exact hrunning phase
    have hrest : Finds (dispose s >>= fun _ => emit (.crossed .tookBack d.tag) >>= fun _ =>
        pure (some o)) w' (found ∧ true = true) (· = o) False := by
      refine finds_of_runs (Does.runs (does_bind hdispose ends_true fun _ _ _ => ?_)) ?_ ⟨h, rfl⟩
      · exact does_modify_bind (does_pure _ _)
      · refine ends_bind ends_true fun _ _ _ => ends_bind ends_true fun _ _ _ => ?_
        exact ends_pure ⟨o, rfl, rfl⟩
    change object = some o at ho
    subst ho
    refine finds_entity_bind hn rfl ?_
    exact hrest

theorem finds_takeBack (c : OwnedClass) (ht : w.IsTolerant) :
    Finds (c.takeBack s) w (c.Recovers v.cls ∧ v.owns = true) (· = o) False := by
  refine finds_bind (yields_requireRunning ht) fun w₁ h₁ => ?_
  have hn₁ := h₁.store.symm ▸ hn
  refine finds_bind (yields_wrapperTag hn₁ rfl rfl) fun w₂ h₂ => ?_
  have hq := trans_of World.Quiet h₁ h₂
  rcases c.recovers_cases v.cls with ⟨htag, h⟩ | ⟨htag, hderived, -, h⟩ | ⟨htag, hderived, h⟩
  · rw [if_pos htag]
    exact finds_retrieve (hq.store ▸ hn) ho c (hq.isTolerant ht) h
  · rw [if_neg htag, hderived]
    refine finds_bind (yields_requireRunning (hq.isTolerant ht)) fun w₃ h₃ => ?_
    have hq' := trans_of World.Quiet hq h₃
    exact finds_retrieve (hq'.store ▸ hn) ho child (hq'.isTolerant ht) h
  · rw [if_neg htag, hderived]
    exact finds_check_bind (fun hand => h hand.1) fun _ => finds_none fun hand => h hand.1

omit ho in
/-- The parent class takes an object back as the child does that made the wrapper. -/
theorem takeBack_parent (hcls : v.cls = child) (ht : w.IsTolerant) (phase : Phase) :
    EndAlike (client.takeBack s phase w) (child.takeBack s phase w) := by
  obtain ⟨w₁, hw₁, hq, hsettings⟩ := requireRunning_settings ht phase
  have htag : wrapperTag s phase w₁ = (.done child.tag, w₁) := by
    rw [wrapperTag, bind_apply, entity_apply (hq.store ▸ hn) rfl, ← hcls]
    rfl
  unfold takeBack
  rw [bind_apply, hw₁, bind_apply (x := requireRunning), hw₁]
  dsimp only
  rw [bind_apply, htag, bind_apply, htag]
  have hretrieve : Composed (child.retrieve s) :=
    composed_of_supervised fun _ _ => child.supervised_retrieve s
  exact alike_running_bind hretrieve (hq.isTolerant ht) hsettings phase

theorem finds_borrow (c : OwnedClass) (ht : w.IsTolerant) :
    Finds (c.borrow s) w (c.Recovers v.cls) (· = o) False := by
  have hobject (d : OwnedClass) (hd : v.cls.tag = d.tag) {w' : World} (hq : w.Quiet w')
      (h : c.Recovers v.cls) : Finds (objectOf d.tag s) w' (c.Recovers v.cls) (· = o) False := by
    refine finds_of_yields (a := o) ?_ h rfl
    rw [← ho, ← hd]
    rw [← hq.store] at hn
    exact yields_objectOf hn rfl rfl (hq.isTolerant ht)
  refine finds_bind (yields_wrapperTag hn rfl rfl) fun w₁ hq => ?_
  rcases c.recovers_cases v.cls with ⟨htag, h⟩ | ⟨htag, hderived, hchild, h⟩ | ⟨htag, hderived, h⟩
  · rw [if_pos htag]
    exact hobject c htag hq h
  · rw [if_neg htag, hderived]
    exact hobject child (congrArg tag hchild) hq h
  · rw [if_neg htag, hderived]
    exact finds_check_bind h fun _ => finds_none h

omit ho in
theorem finds_ownedInspect (c : OwnedClass) :
    Finds (c.inspect s) w (v.cls = c) (fun r => r.tag = v.cls.tag ∧ r.owns = v.owns) False := by
  refine finds_recognises_bind hn rfl rfl (fun htag w' hq => ?_) fun htag h => htag (h ▸ rfl)
  refine finds_of_yields (a := ⟨v.cls.tag, v.owns⟩) ?_ (tag_injective htag) ⟨rfl, rfl⟩
  exact yields_entity_bind (hq.store ▸ hn) rfl (yields_pure _ w')

end Owned

end OwnedClass

end ObjectBoundary
