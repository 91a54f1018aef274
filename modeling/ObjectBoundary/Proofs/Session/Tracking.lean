import ObjectBoundary.Proofs.Acts.Directly
import ObjectBoundary.Proofs.References.Whole
import ObjectBoundary.Proofs.Session.Accounts

/-!
# Steps that take and give up one reference

There are many ways to take a reference to an entity: through a handle, through its structure, on
its wrapper, or through its proxy. Where the structure has its members they all come to the same.

* `State.Takes`, `State.Gives`: the steps that take a reference and give one up.
* `State.Tracks`: another act decides what a step does.
* `State.Takes.tracks`, `State.Gives.tracks`: taking the reference and giving it up decide.
-/

namespace ObjectBoundary.Session

open ObjectBoundary

variable {s : State} {x : Step} {out : Ledger} {z : Id} {p : Plan} {r : Role}

/-! ## Steps that move one reference -/

/-- A step that takes a reference to an entity, which a handle or leaked reference names or which
is a structure that still has a reference. -/
inductive State.Takes (s : State) : Step → Id → Prop
  | clone {source name : String} {z : Id} {view : SharedInterface} :
    s.slots.find? source = some (.handle z view) → s.slots.find? name = none →
      s.Takes (.handle (.clone source name)) z
  | retain {source name : String} {z : Id} {view : SharedInterface} :
    s.slots.find? source = some (.leaked z view) → s.slots.find? name = none →
      s.Takes (.handle (.retain source name)) z
  | call {source : String} {z : Id} :
    s.slots.find? source = some (.struct z) → s.world.store.HasRole z .sharedStructure →
      1 ≤ s.world.store.references z → s.Takes (.struct (.call source "add_ref" .itself)) z
  | wrapper {c : SharedClass} {source : String} {z : Id} :
    s.slots.find? source = some (.struct z) → s.world.store.wrapperTag? z = some c.tag →
      1 ≤ s.world.store.references z → s.Takes (.shared (.retainWrapper c source)) z
  | target {source name : String} {o : Id} {view : SharedInterface} {q : SharedProxy} :
    s.slots.find? source = some (.handle o view) →
      s.world.store.get? o = some ⟨name, .sharedProxy q, true⟩ →
      1 ≤ s.world.store.references q.target → s.Takes (.shared (.target .retain source)) q.target

/-- A step that gives a reference to an entity up. -/
inductive State.Gives (s : State) : Step → Id → Prop
  | drop {source : String} {z : Id} {view : SharedInterface} :
    s.slots.find? source = some (.handle z view) → s.Gives (.handle (.drop source)) z
  | release {source : String} {z : Id} {view : SharedInterface} :
    s.slots.find? source = some (.leaked z view) → s.Gives (.handle (.release source)) z
  | call {source : String} {z : Id} :
    s.slots.find? source = some (.struct z) → s.world.store.HasRole z .sharedStructure →
      1 ≤ s.world.store.references z → s.Gives (.struct (.call source "release" .itself)) z
  | wrapper {c : SharedClass} {source : String} {z : Id} :
    s.slots.find? source = some (.struct z) → s.world.store.wrapperTag? z = some c.tag →
      1 ≤ s.world.store.references z → s.Gives (.shared (.releaseWrapper c source)) z
  | target {source name : String} {o : Id} {view : SharedInterface} {q : SharedProxy} :
    s.slots.find? source = some (.handle o view) →
      s.world.store.get? o = some ⟨name, .sharedProxy q, true⟩ →
      1 ≤ s.world.store.references q.target → s.Gives (.shared (.target .release source)) q.target

/-- What a step that gives a reference up answers, given the answer of the function `release`. -/
def Step.reply : Step → Int32 → Value
  | .handle (.drop _), _ => .null
  | .struct _, a => .number a.toInt
  | _, a => .flag (a != 0)

/-! ## Their plans -/

namespace Slots

variable {slots : Slots} {source : String}

/-- A slot that holds a reference counts. -/
theorem one_le_held {slot : Slot} (h : slots.find? source = some slot)
    (ho : slot.object? = some z) : 1 ≤ slots.held z := by
  obtain ⟨_, _, hsplit, -⟩ := List.lookup_eq_some_iff.mp h
  refine List.countP_pos_iff.mpr ⟨(source, slot), hsplit ▸ by simp, ?_⟩
  exact decide_eq_true ho

/-- A handle counts. -/
theorem one_le_handles {view : SharedInterface} (h : slots.find? source = some (.handle z view)) :
    1 ≤ slots.handles z := by
  obtain ⟨_, _, hsplit, -⟩ := List.lookup_eq_some_iff.mp h
  refine List.countP_pos_iff.mpr ⟨(source, .handle z view), hsplit ▸ by simp, ?_⟩
  exact beq_self_eq_true z

end Slots

section Plans

variable {slots : Slots} {source name : String} {view : SharedInterface}

/-- What taking another reference and holding it is planned as. -/
def holdingAnother (z : Id) (view : SharedInterface) (name : String) : Plan :=
  .making name do
    Act.retain z
    pure (.null, .handle z view)

theorem plan_clone (h : slots.find? source = some (.handle z view)) :
    Step.plan slots (.handle (.clone source name)) = .ok (holdingAnother z view name) := by
  show (slots.handle source >>= _) = _
  rw [Slots.handle_of_find? h]
  rfl

theorem plan_retain (h : slots.find? source = some (.leaked z view)) :
    Step.plan slots (.handle (.retain source name)) = .ok (holdingAnother z view name) := by
  show (slots.leaked source >>= _) = _
  rw [Slots.leaked_of_find? h]
  rfl

theorem plan_drop (h : slots.find? source = some (.handle z view)) :
    Step.plan slots (.handle (.drop source)) =
      .ok ((Plan.answering (silently (Act.drop z))).consuming source) := by
  show (slots.argument (some source) >>= _) = _
  simp only [Slots.argument, h]
  rfl

theorem plan_release (h : slots.find? source = some (.leaked z view)) :
    Step.plan slots (.handle (.release source)) =
      .ok ((Plan.answering (asTruth (Act.release z))).consuming source) := by
  show (slots.leaked source >>= _) = _
  rw [Slots.leaked_of_find? h]
  rfl

theorem plan_call (h : slots.find? source = some (.struct z)) (member : String) :
    Step.plan slots (.struct (.call source member .itself)) = .ok (.answering (do
      let i ← StructStep.position z member
      return StructStep.replyValue (← Act.call z i (some z)))) := by
  show (slots.struct source >>= _) = _
  rw [Slots.struct_of_find? h]
  rfl

theorem plan_retainWrapper (h : slots.find? source = some (.struct z)) (c : SharedClass) :
    Step.plan slots (.shared (.retainWrapper c source)) = .ok (.answering (do
      if ← Act.recognises c.tag z then silently (Act.retain z) else pure .null)) := by
  show (slots.struct source >>= _) = _
  rw [Slots.struct_of_find? h]
  rfl

theorem plan_releaseWrapper (h : slots.find? source = some (.struct z)) (c : SharedClass) :
    Step.plan slots (.shared (.releaseWrapper c source)) = .ok (.answering (do
      if ← Act.recognises c.tag z then asTruth (Act.release z) else pure .null)) := by
  show (slots.struct source >>= _) = _
  rw [Slots.struct_of_find? h]
  rfl

theorem plan_target (h : slots.find? source = some (.handle z view)) (step : TargetStep) :
    Step.plan slots (.shared (.target step source)) = .ok (.answering (do
      match ← Act.entity z with
      | .sharedProxy p => SharedStep.targetAct p step
      | _ => Act.refuse .wrongKind)) := by
  show (slots.handle source >>= _) = _
  rw [Slots.handle_of_find? h]
  rfl

end Plans

/-- What a slot holds a reference to exists. -/
theorem Balanced.one_le_references (h : Balanced s out) {source : String} {slot : Slot}
    (hf : s.slots.find? source = some slot) (ho : slot.object? = some z) :
    1 ≤ s.world.store.references z := by
  have hr : s.world.store.HasRole z .sharedObject := by
    have hfits := h.fit.find? hf
    cases slot <;> cases ho <;> exact hfits
  have hheld := Slots.one_le_held hf ho
  rw [Slots.held_eq] at hheld
  rw [h.references_object hr, State.owned]
  omega

/-- Another act decides whether a step is done, in which world, and with which answer. -/
inductive State.Tracks {β : Type} (s : State) (x : Step) (y : Act β) (v : β → Value) : Prop
  | intro {p : Plan} {g : β → Value × Slot} : x.plan s.slots = .ok p →
    State.nameIsFree s.slots p = true → Act.Follows p.act y g s.begun → (∀ b, (g b).1 = v b) →
      s.Tracks x y v

section Tracks

variable {β : Type} {y : Act β} {v : β → Value}

theorem State.Tracks.isDone (h : s.Tracks x y v) (hy : Act.Does y s.begun) :
    s.isDone x = true := by
  obtain ⟨hp, hfree, hfollows, -⟩ := h
  obtain ⟨b, w', hb⟩ := hfollows.does hy .normal
  rw [State.isDone, State.step_of_done hp hfree hb]
  rfl

theorem State.Tracks.of_isDone {P : β → World → Prop} {U : Failure → World → Prop}
    (h : s.Tracks x y v) (hy : Act.Ends y s.begun P U) (hdone : s.isDone x = true) :
    ∃ b, P b (s.step x).2.world ∧ (s.step x).1.outcome = .done (v b) := by
  obtain ⟨hp, hfree, hfollows, hv⟩ := h
  obtain ⟨p', hp', -, hcases⟩ := State.proceeds_cases (State.undisturbed_of_isDone hdone).1
  cases hp.symm.trans hp'
  rcases hcases with ⟨value, slot, w', hact, houtcome, hstep⟩ | ⟨failure, w', -, houtcome, -⟩
  · obtain ⟨b, hb, hP⟩ := hfollows.done hy hact
    refine ⟨b, by rw [hstep]; exact hP, ?_⟩
    rw [houtcome, ← hv b, ← hb]
  · rw [State.isDone, houtcome] at hdone
    cases hdone

end Tracks

/-- A structure of a wrapper, or of the far side, that has a reference. -/
theorem live_of_references (hs : s.world.store.Sound) (hr : s.world.store.HasRole z r)
    (href : 1 ≤ s.world.store.references z) :
    ∃ n, s.world.store.get? z = some n ∧ n.live = true ∧ n.entity.role = r := by
  obtain ⟨n, hn, hrole⟩ := hr
  obtain ⟨n', hn', href'⟩ := Store.exists_of_references href
  cases hn.symm.trans hn'
  exact ⟨n, hn, (hs.counted z n hn).live href', hrole⟩

/-- A member of a structure that has a reference is called directly. -/
theorem tracks_call {β : Type} {y : Act β} {g : β → Act.Reply} {source member : String} {i : Nat}
    (hs : s.world.store.Sound) (hsource : s.slots.find? source = some (.struct z))
    (hr : s.world.store.HasRole z .sharedStructure) (href : 1 ≤ s.world.store.references z)
    (hi : ∀ l : Layout, l.IsShared → l.position? member = some i)
    (h : ∀ n, s.world.store.get? z = some n → n.live = true → n.entity.role = .sharedStructure →
      Act.Follows (Act.call z i (some z)) y g s.begun) :
    s.Tracks (.struct (.call source member .itself)) y fun b => StructStep.replyValue (g b) := by
  obtain ⟨n, hn, hlive, hrole⟩ := live_of_references hs hr href
  obtain ⟨t, ht⟩ := Entity.struct?_of_role hrole
  have hposition : Act.Follows (StructStep.position z member >>= fun i =>
      Act.call z i (some z) >>= fun r => pure (StructStep.replyValue r)) y
      (StructStep.replyValue ∘ g) s.begun := by
    unfold StructStep.position Act.struct
    simp only [bind_assoc]
    refine Act.Follows.entity_bind hn hlive (Act.Follows.ofOption_bind ht ?_)
    apply Act.Follows.ofOption_bind (hi _ ((hs.formed z n hn).isShared hrole ht))
    exact (h n hn hlive hrole).map StructStep.replyValue
  exact .intro (plan_call hsource member) rfl (hposition.map fun v => (v, Slot.null)) fun _ => rfl

/-- A class acts directly on a wrapper that it made. -/
theorem tracks_wrapper {β : Type} {y : Act β} {v : β → Value} {c : SharedClass} {act : Act Value}
    {step : Step} (hs : s.world.store.Sound) (htag : s.world.store.wrapperTag? z = some c.tag)
    (href : 1 ≤ s.world.store.references z)
    (hp : step.plan s.slots = .ok (.answering (do
      if ← Act.recognises c.tag z then act else pure .null)))
    (h : Act.Follows act y v s.begun) : s.Tracks step y v := by
  obtain ⟨n, hn, href'⟩ := Store.exists_of_references href
  have hlive := (hs.counted z n hn).live href'
  rw [Store.wrapperTag?_eq hn] at htag
  have hrecognises : Act.Follows (Act.recognises c.tag z >>= fun b =>
      if b = true then act else pure .null) y v s.begun :=
    Act.follows_recognises hn hlive htag h
  exact .intro hp rfl (hrecognises.map fun v => (v, Slot.null)) fun _ => rfl

/-- A member of the structure of a live proxy is called through the proxy. -/
theorem tracks_target {β : Type} {y : Act β} {v : β → Value} {source name : String} {o : Id}
    {view : SharedInterface} {q : SharedProxy} {step : TargetStep} (hs : s.world.store.Sound)
    (ha : s.world.store.Accountable q.target)
    (hsource : s.slots.find? source = some (.handle o view))
    (hn : s.world.store.get? o = some ⟨name, .sharedProxy q, true⟩)
    (href : 1 ≤ s.world.store.references q.target)
    (h : ∀ n, s.world.store.get? q.target = some n → n.live = true →
      n.entity.role = .sharedStructure → n.entity.isAccountable = true →
      Act.Follows (SharedStep.targetAct q step) y v s.begun) :
    s.Tracks (.shared (.target step source)) y v := by
  obtain ⟨m, hm, hlive, hrole⟩ := live_of_references hs (hs.linked o _ _ hn rfl).2 href
  have hentity : Act.Follows (Act.entity o >>= fun e =>
      match e with
      | .sharedProxy p => SharedStep.targetAct p step
      | _ => Act.refuse .wrongKind) y v s.begun :=
    Act.Follows.entity_bind hn rfl (h m hm hlive hrole (ha m hm))
  exact .intro (plan_target hsource step) rfl (hentity.map fun v => (v, Slot.null)) fun _ => rfl

/-- A step that takes a reference is done where taking the reference is. -/
theorem State.Takes.tracks (hx : s.Takes x z) (hs : s.world.store.Sound)
    (ha : s.world.store.Accountable z) : s.Tracks x (Act.retain z) fun _ => .null := by
  have hretain := Act.follows_refl (Act.retain z) s.begun
  cases hx with
  | @clone source name _ view hsource hname =>
    exact .intro (plan_clone hsource) (Option.isNone_iff_eq_none.mpr hname)
      (hretain.map fun _ => (Value.null, Slot.handle z view)) fun _ => rfl
  | @retain source name _ view hsource hname =>
    exact .intro (plan_retain hsource) (Option.isNone_iff_eq_none.mpr hname)
      (hretain.map fun _ => (Value.null, Slot.handle z view)) fun _ => rfl
  | call hsource hr href =>
    exact tracks_call hs hsource hr href (fun _ => Layout.position_addRef)
      fun n hn hlive hrole => Act.follows_call_addRef hn hlive hrole (ha n hn)
  | @wrapper c source _ hsource htag href =>
    exact tracks_wrapper hs htag href (plan_retainWrapper hsource c)
      (hretain.map fun _ => Value.null)
  | @target source name o view q hsource hn href =>
    apply tracks_target hs ha hsource hn href
    intro m hm hlive hr hc
    have hthrough := Act.follows_through (w := s.begun) hm hlive hr hc () (Or.inl rfl) hretain
    exact hthrough.map fun _ => Value.null

/-- A step that gives a reference up is done where giving the reference up is. -/
theorem State.Gives.tracks (hx : s.Gives x z) (hs : s.world.store.Sound)
    (ha : s.world.store.Accountable z) : s.Tracks x (Act.release z) x.reply := by
  have hrelease := Act.follows_refl (Act.release z) s.begun
  cases hx with
  | @drop source _ view hsource =>
    have hdrop := (hrelease.map fun _ => ()).map fun _ => Value.null
    exact .intro (plan_drop hsource) rfl (hdrop.map fun v => (v, Slot.null)) fun _ => rfl
  | @release source _ view hsource =>
    have htruth := hrelease.map fun a => Value.flag (a != 0)
    exact .intro (plan_release hsource) rfl (htruth.map fun v => (v, Slot.null)) fun _ => rfl
  | call hsource hr href =>
    exact tracks_call hs hsource hr href (fun _ => Layout.position_release)
      fun n hn hlive hrole => Act.follows_call_release hn hlive hrole (ha n hn)
  | @wrapper c source _ hsource htag href =>
    exact tracks_wrapper hs htag href (plan_releaseWrapper hsource c)
      (hrelease.map fun a => Value.flag (a != 0))
  | @target source name o view q hsource hn href =>
    refine tracks_target hs ha hsource hn href fun m hm hlive hr hc => ?_
    have hthrough := Act.follows_through (w := s.begun) hm hlive hr hc 0 (Or.inr rfl) hrelease
    exact (hthrough.map fun a => a != 0).map Value.flag

end ObjectBoundary.Session
