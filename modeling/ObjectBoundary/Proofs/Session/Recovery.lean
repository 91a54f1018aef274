import ObjectBoundary.Proofs.Acts.Recovery
import ObjectBoundary.Proofs.Acts.Shared
import ObjectBoundary.Proofs.Session.Undisturbed

/-!
# Recovering objects in a session

An object that was wrapped at some time can be recovered from its wrapper as long as the wrapper
exists, whatever has happened in between: by the class that wrapped it and by the parent class of
that one, and it is that very object. The parent class does what the child does, followed by an
upcast.

* `Wrapping`, `State.HasWrapped`: how an object was wrapped, and that it was.
* `State.Recovery`: what each class recovers from a wrapper.
* `recovery_by_class`: this holds of every wrapper that exists.
-/

namespace ObjectBoundary.Session

open ObjectBoundary Act

/-! ## Wrapping -/

/-- How an object is wrapped. -/
inductive Wrapping where
  | shared (cls : SharedClass)
  | given (cls : OwnedClass)
  | lent (cls : OwnedClass)

namespace Wrapping

/-- What is held of an object before it is wrapped. -/
def held (o : Id) : Wrapping → Slot
  | shared c => .handle o c.interface
  | given c | lent c => .owner o c.interface

/-- What is held of the wrapper. -/
def made (x : Id) : Wrapping → Slot
  | shared _ | given _ => .struct x
  | lent _ => .loan x

def act (name : String) (o : Id) : Wrapping → Act Id
  | shared c => c.wrap name o
  | given c => c.give name o
  | lent c => c.lend name o

def step (source name : String) : Wrapping → Step
  | shared c => .shared (.wrap c (some source) name)
  | given c => .owned (.give c (some source) name)
  | lent c => .owned (.lend c (some source) name)

/-- A new wrapper. -/
def entity (o : Id) : Wrapping → Entity
  | shared c => .sharedWrapper ⟨c, o, c.newStruct, .zero⟩
  | given c => .ownedWrapper ⟨c, some o, c.newStruct true, true⟩
  | lent c => .ownedWrapper ⟨c, some o, c.newStruct false, false⟩

theorem made_injective {m : Wrapping} {x y : Id} (h : m.made x = m.made y) : x = y := by
  cases m <;> cases h <;> rfl

/-- An object that is lent stays where it is. -/
def uses (source : String) : Wrapping → Option String
  | shared _ | given _ => some source
  | lent _ => none

theorem plan_step {m : Wrapping} {o : Id} {slots : Slots} {source : String}
    (h : slots.find? source = some (m.held o)) (name : String) :
    (m.step source name).plan slots = .ok ⟨m.uses source, some name,
      m.act name o >>= fun x => holding (fun x => m.made x) (some x)⟩ := by
  cases m with
  | shared c =>
    show (slots.handle? (some source) >>= _) = _
    rw [Slots.handle?_of_find? h]
    show (viewed c.interface (some (o, c.interface)) >>= _) = _
    rw [viewed, if_pos rfl]
    rfl
  | given c | lent c =>
    show (slots.owner? (some source) >>= _) = _
    rw [Slots.owner?_of_find? h]
    show (viewed c.interface (some (o, c.interface)) >>= _) = _
    rw [viewed, if_pos rfl]
    rfl

end Wrapping

/-- There is a wrapper of an object, made in a certain way, that has not lost its object. -/
def Wraps (st : Store) (m : Wrapping) (o x : Id) : Prop :=
  ∃ n, st.get? x = some n ∧ (m.entity o).Continues n.entity ∧ ¬ n.IsVacant

theorem ends_owned {m : Wrapping} {o : Id} {w : World} {name : String} {t : Tag} {c : Crossing}
    (hm : ∀ n : Node, n.entity = m.entity o → ¬ n.IsVacant) :
    Ends
      (do
        requireRunning
        let x ← create name (m.entity o)
        emit (.crossed c t)
        pure x)
      w (fun a w' => Wraps w'.store m o a) fun _ _ => True := by
  refine ends_bind ends_true fun _ w₁ _ => ?_
  refine ends_bind (P := fun a w₂ => Wraps w₂.store m o a) (fun _ => ?_) fun a w₂ h₂ => ?_
  · exact ⟨_, Store.get?_push_size _ _, .refl _, hm _ rfl⟩
  · exact ends_modify_bind (ends_pure h₂)

/-- Whatever the way, wrapping brings a wrapper of the object. -/
theorem Wrapping.ends_act (m : Wrapping) {o : Id} {w : World} (name : String)
    (hs : w.store.Sound) (hfits : (m.held o).Fits w.store) :
    Ends (m.act name o) w (fun a w' => Wraps w'.store m o a) fun _ _ => True := by
  cases m with
  | shared c =>
    refine ends_mono (c.ends_wrap name hs hfits) (fun a w' h => ?_) fun _ _ _ => trivial
    obtain ⟨-, n, hn, hcont⟩ := h
    refine ⟨n, hn, hcont, fun hvacant => ?_⟩
    obtain ⟨name, e, live⟩ := n
    cases e <;> first | exact Bool.noConfusion hvacant.2 | exact hcont
  | given c =>
    refine ends_owned (m := .given c) fun n hn hvacant => ?_
    rw [Node.IsVacant, hn] at hvacant
    exact Bool.noConfusion hvacant.2
  | lent c =>
    refine ends_owned (m := .lent c) fun n hn hvacant => ?_
    rw [Node.IsVacant, hn] at hvacant
    exact Bool.noConfusion hvacant.2

/-- A wrapper that was made of an object at some time before. -/
inductive State.HasWrapped : State → Wrapping → Id → Id → Prop
  | made {s : State} {out : Ledger} {m : Wrapping} {o x : Id} {source name : String} :
    Reachable State.Proceeds s out → s.slots.find? source = some (m.held o) →
      s.isDone (m.step source name) = true →
      (s.step (m.step source name)).2.slots.find? name = some (m.made x) →
      HasWrapped (s.step (m.step source name)).2 m o x
  | later {s : State} {m : Wrapping} {o x : Id} (y : Step) :
    HasWrapped s m o x → s.Proceeds y → HasWrapped (s.step y).2 m o x

namespace State.HasWrapped

variable {s : State} {m : Wrapping} {o x : Id}

theorem reachable (h : s.HasWrapped m o x) : ∃ out, Reachable State.Proceeds s out := by
  induction h with
  | made h _ hdone _ => exact ⟨_, h.step _ (State.undisturbed_of_isDone hdone).1⟩
  | later y _ hy ih => exact ih.elim fun out h => ⟨_, h.step y hy⟩

/-- As long as the check of the start of shutdown has not unwound, the wrapper is what it was
when it was made. -/
theorem wraps (h : s.HasWrapped m o x) (hnot : ¬ s.world.IsClosed) :
    Wraps s.world.store m o x := by
  induction h with
  | @made s out m o x source name hreachable hsource hdone hmade =>
    have hbefore : ¬ s.world.IsClosed := fun hc => hnot ((s.later_step _).isClosed hc)
    have hbalanced := (hreachable.undisturbed hbefore).balanced
    have hplan := Wrapping.plan_step hsource name
    obtain ⟨p, hp, -, hcases⟩ := State.proceeds_cases (State.undisturbed_of_isDone hdone).1
    cases hplan.symm.trans hp
    have hends := m.ends_act (w := s.begun) name hbalanced.sound (hbalanced.fit.find? hsource)
    rcases hcases with ⟨value, slot, w', hact, -, hstep⟩ | ⟨failure, w', -, hunwound, -⟩
    · have hpost : ∃ a, slot = m.made a ∧ Wraps w'.store m o a :=
        ends_of_done (P := fun r w' => ∃ a, r.2 = m.made a ∧ Wraps w'.store m o a)
          (ends_bind hends fun a _ ha => ends_get_bind (ends_pure ⟨a, rfl, ha⟩)) hact
      obtain ⟨a, rfl, ha⟩ := hpost
      rw [hstep] at hmade
      have hslot := (Slots.find?_add _ name name _).symm.trans hmade
      rw [if_pos rfl] at hslot
      rw [hstep, ← Wrapping.made_injective (Option.some.inj hslot)]
      exact ha
    · rw [State.isDone, hunwound] at hdone
      cases hdone
  | @later s m o x y h hy ih =>
    have hbefore : ¬ s.world.IsClosed := fun hc => hnot ((s.later_step y).isClosed hc)
    obtain ⟨out, hreachable⟩ := h.reachable
    have hbalanced := (hreachable.undisturbed hbefore).balanced
    obtain ⟨δ, hmoved⟩ := hbalanced.moved (hy.undisturbed hnot)
    obtain ⟨n, hn, hcont, hvacant⟩ := ih hbefore
    obtain ⟨n', hn', hcont'⟩ := hmoved.turns.continues x n hn
    refine ⟨n', hn', hcont.trans hcont'.entity, fun hvacant' => hvacant ?_⟩
    have hstore : s.world.store.IsVacant x := s.vacant_after [y] ⟨n', hn', hvacant'⟩
    obtain ⟨k, hk, hk'⟩ := hstore
    cases hn.symm.trans hk
    exact hk'

end State.HasWrapped

/-! ## The parent class -/

/-- Two courses of steps have led to the same entities and slots. -/
def State.Matches (s s' : State) : Prop := s.world.Alike s'.world ∧ s.slots = s'.slots

section Parent

variable {s : State} {x : Id} {via name : String}

theorem Slots.without_of_free {slots : Slots} (h : slots.find? name = none) :
    slots.without name = slots := by
  refine congrArg Slots.mk (List.filter_eq_self.mpr fun e he => ?_)
  rw [bne_iff_ne]
  intro heq
  exact Slots.find?_eq_none_iff.mp h (heq ▸ List.mem_map_of_mem he)

theorem Slots.without_add {slots : Slots} (h : slots.find? name = none) (slot : Slot) :
    (slots.add name slot).without name = slots := by
  refine Eq.trans (congrArg Slots.mk ?_) (Slots.without_of_free h)
  show List.filter _ ((name, slot) :: slots.entries) = _
  rw [List.filter_cons, bne_self_eq_false]
  rfl

/-- A step that makes a slot of what its act finds. -/
theorem step_of_finds {step : Step} {act : Act (Option Id)} {view : Id → Slot} {P : Id → Prop}
    {stuck : Prop} (hp : step.plan s.slots = .ok (.making name (act >>= holding view)))
    (hname : s.slots.find? name = none) (hfinds : Finds act s.begun True P stuck) :
    (∃ o w', act .normal s.begun = (.done (some o), w') ∧
      (s.step step).2 = ⟨w', s.slots.add name (view o)⟩) ∨
    (∃ m w', act .normal s.begun = (.refused m, w')) ∧ (s.step step).2 = ⟨s.begun, s.slots⟩ := by
  have hfree : State.nameIsFree s.slots (.making name (act >>= holding view)) = true :=
    Option.isNone_iff_eq_none.mpr hname
  have hfound := hfinds .normal
  rcases hr : act .normal s.begun with ⟨(_ | o) | e | _ | m, w'⟩
  all_goals rw [hr] at hfound
  · exact absurd trivial hfound
  · have hact : (Plan.making name (act >>= holding view)).act .normal s.begun =
        (.done (.text (w'.store.nameOf o), view o), w') := by
      show (act >>= holding view) .normal s.begun = _
      rw [bind_apply, hr]
      rfl
    refine Or.inl ⟨o, w', rfl, ?_⟩
    rw [State.step_of_done hp hfree hact]
    rfl
  · exact absurd trivial hfound
  · exact hfound.elim
  · have hact : (Plan.making name (act >>= holding view)).act .normal s.begun =
        (.refused m, w') := by
      show (act >>= holding view) .normal s.begun = _
      rw [bind_apply, hr]
    refine Or.inr ⟨⟨m, w', rfl⟩, ?_⟩
    rw [State.step_of_plan hp hfree, State.carryOut]
    unfold State.begun at hact
    rw [hact]
    rfl

/-- The upcast of a slot that was just made replaces it. -/
theorem step_upcast_added {w : World} {slots : Slots} {slot slot' : Slot} {target : Upcast}
    (hupcast : HandleStep.upcastSlot target slot = .ok slot')
    (hname : slots.find? name = none) (hvia : slots.find? via = none) :
    (State.step ⟨w, slots.add via slot⟩ (.handle (.upcast via target name))).2 =
      ⟨{ w with log := [] }, slots.add name slot'⟩ := by
  have hfound : (slots.add via slot).find? via = some slot := by
    rw [Slots.find?_add, if_pos rfl]
  have hplan : Step.plan (slots.add via slot) (.handle (.upcast via target name)) =
      .ok ((Plan.making name (pure (.null, slot'))).consuming via) := by
    show ((slots.add via slot).argument (some via) >>= fun slot =>
      HandleStep.upcastSlot target slot >>= _) = _
    rw [Slots.argument, hfound]
    show (HandleStep.upcastSlot target slot >>= _) = _
    rw [hupcast]
    rfl
  have hremaining : State.remaining (slots.add via slot)
      ((Plan.making name (pure (.null, slot'))).consuming via) = slots :=
    Slots.without_add hvia slot
  have hfree : State.nameIsFree (slots.add via slot)
      ((Plan.making name (pure (.null, slot'))).consuming via) = true := by
    show ((State.remaining _ _).find? name).isNone = true
    rw [hremaining, hname]
    rfl
  rw [State.step_of_done (s := ⟨w, slots.add via slot⟩) hplan hfree rfl, hremaining]
  rfl

/-- There is no upcast of a slot that was not made. -/
theorem step_upcast_missing {w : World} {slots : Slots} {target : Upcast}
    (hvia : slots.find? via = none) :
    (State.step ⟨w, slots⟩ (.handle (.upcast via target name))).2 = ⟨w, slots⟩ := by
  have hplan : Step.plan slots (.handle (.upcast via target name)) = .error .unknown := by
    show (slots.argument (some via) >>= _) = _
    rw [Slots.argument, hvia]
    rfl
  rw [State.step, hplan]

/-- A step that finds what another one finds, and that under the parent interface, does what the
other one does, followed by an upcast. -/
theorem matches_upcast {direct first : Step} {x y : Act (Option Id)} {view parent : Id → Slot}
    {target : Upcast} {P : Id → Prop} {stuck : Prop}
    (hdirect : direct.plan s.slots = .ok (.making name (x >>= holding parent)))
    (hfirst : first.plan s.slots = .ok (.making via (y >>= holding view)))
    (hupcast : ∀ o, HandleStep.upcastSlot target (view o) = .ok (parent o))
    (hname : s.slots.find? name = none) (hvia : s.slots.find? via = none)
    (hx : Finds x s.begun True P stuck) (hy : Finds y s.begun True P stuck)
    (halike : EndAlike (x .normal s.begun) (y .normal s.begun)) :
    (s.after [direct]).Matches (s.after [first, .handle (.upcast via target name)]) := by
  obtain ⟨houtcome, hworld⟩ := halike
  show (s.step direct).2.Matches ((s.step first).2.step (.handle (.upcast via target name))).2
  rcases step_of_finds hdirect hname hx with ⟨o, w₁, hr, hs₁⟩ | ⟨⟨m, w₁, hr⟩, hs₁⟩
  all_goals rw [hr] at houtcome hworld
  · rcases step_of_finds hfirst hvia hy with ⟨o', w₂, hr', hs₂⟩ | ⟨⟨m, w₂, hr'⟩, -⟩
    all_goals rw [hr'] at houtcome hworld
    · cases houtcome
      rw [hs₁, hs₂, step_upcast_added (hupcast o) hname hvia]
      exact ⟨hworld.withLog [], rfl⟩
    · cases houtcome
  · rcases step_of_finds hfirst hvia hy with ⟨o', w₂, hr', -⟩ | ⟨⟨m, w₂, hr'⟩, hs₂⟩
    all_goals rw [hr'] at houtcome hworld
    · cases houtcome
    · rw [hs₁, hs₂, step_upcast_missing hvia]
      exact ⟨.refl _, rfl⟩

end Parent

/-! ## Recovery -/

/-- What a class recovers from a wrapper that another one made of a shared object. Where something
below the wrapper has ceased to exist, the object cannot be used. -/
structure SharedRecovery (c d : SharedClass) (w : World) (o x : Id) : Prop where
  unwrap : Finds (c.unwrap x) w (c.Recovers d) (· = o) (∃ y ∈ w.store.chain x, ¬ w.store.IsLive y)
  object : Finds (objectOf c.tag x) w (d = c) (· = o) False
  inspect : Finds (c.inspect x) w (d = c)
    (fun r => r.tag = d.tag ∧ r.object = w.store.nameOf o)
    (∃ y ∈ w.store.chain x, ¬ w.store.IsLive y)
  looking : Respects World.Quiet (objectOf c.tag x) w ∧ Respects World.Quiet (c.inspect x) w

/-- What a class recovers from a wrapper that another one made of an owned object. -/
structure OwnedRecovery (c d : OwnedClass) (owns : Bool) (w : World) (o x : Id) : Prop where
  takeBack : Finds (c.takeBack x) w (c.Recovers d ∧ owns = true) (· = o) False
  borrow : Finds (c.borrow x) w (c.Recovers d) (· = o) False
  object : Finds (objectOf c.tag x) w (d = c) (· = o) False
  inspect : Finds (c.inspect x) w (d = c) (fun r => r.tag = d.tag ∧ r.owns = owns) False
  looking : Respects World.Quiet (c.borrow x) w ∧ Respects World.Quiet (objectOf c.tag x) w ∧
    Respects World.Quiet (c.inspect x) w

namespace State

/-- Unwrapping by the parent class comes to unwrapping by the child class and an upcast. -/
def UnwrapsAsChild (s : State) (x : Id) : Prop :=
  ∀ source name via, s.slots.find? source = some (.struct x) → s.slots.find? name = none →
    s.slots.find? via = none →
    (s.after [.shared (.unwrap .client (some source) name)]).Matches
      (s.after [.shared (.unwrap .child (some source) via), .handle (.upcast via .client name)])

/-- Taking back by the parent class comes to taking back by the child class and an upcast. -/
def TakesBackAsChild (s : State) (x : Id) : Prop :=
  ∀ source name via, s.slots.find? source = some (.struct x) → s.slots.find? name = none →
    s.slots.find? via = none →
    (s.after [.owned (.takeBack .client (some source) name)]).Matches
      (s.after [.owned (.takeBack .child (some source) via),
        .handle (.upcast via .ownedClient name)])

/-- What is recovered from a wrapper, given how it was made. -/
def Recovery (s : State) (o x : Id) : Wrapping → Prop
  | .shared d => (∀ c, SharedRecovery c d s.begun o x) ∧ (d = .child → s.UnwrapsAsChild x)
  | .given d => (∀ c, OwnedRecovery c d true s.begun o x) ∧ (d = .child → s.TakesBackAsChild x)
  | .lent d => ∀ c, OwnedRecovery c d false s.begun o x

end State

section Recovery

variable {s : State} {o x : Id} {name : String}

theorem plan_unwrap {slots : Slots} {source : String} (h : slots.find? source = some (.struct x))
    (c : SharedClass) (name : String) : Step.plan slots (.shared (.unwrap c (some source) name)) =
      .ok (.making name (c.unwrap x >>= holding fun o => .handle o c.interface)) := by
  show (slots.struct? (some source) >>= _) = _
  rw [Slots.struct?_of_find? h]
  rfl

theorem plan_takeBack {slots : Slots} {source : String} (h : slots.find? source = some (.struct x))
    (c : OwnedClass) (name : String) : Step.plan slots (.owned (.takeBack c (some source) name)) =
      .ok (.making name (c.takeBack x >>= holding fun o => .owner o c.interface)) := by
  show (slots.struct? (some source) >>= _) = _
  rw [Slots.struct?_of_find? h]
  rfl

theorem sharedRecovery {w : World} {v : SharedWrapper} (hs : w.store.Sound) (ht : w.IsTolerant)
    (hr : w.store.CanRise (w.store.chain x))
    (hn : w.store.get? x = some ⟨name, .sharedWrapper v, true⟩) (c : SharedClass) :
    SharedRecovery c v.cls w v.object x := by
  have hl : w.store.Linked := hs.linked
  have hchain := Store.chain_of_below hs.earlier hn rfl
  have hgone (hnot : ¬ w.store.Upheld (w.store.chain x)) :
      ∃ y ∈ w.store.chain x, ¬ w.store.IsLive y := by
    by_contra hall
    refine hnot (hl.upheld_chain hn rfl fun y hy => ?_)
    by_contra hdead
    exact hall ⟨y, hy, hdead⟩
  have hbelow : w.store.CanRise (w.store.chain v.object) := fun y hy =>
    hr y (hchain ▸ List.mem_cons_of_mem x hy)
  refine ⟨finds_mono (SharedClass.finds_unwrap hn hs c ht hbelow) Iff.rfl hgone, ?_,
    finds_mono (SharedClass.finds_sharedInspect hn hs c) Iff.rfl hgone,
    respects_objectOf _ _, respects_sharedInspect c x⟩
  exact finds_mono (finds_objectOf hn rfl rfl ht rfl c.tag) SharedClass.tag_injective.eq_iff id

theorem ownedRecovery {w : World} {v : OwnedWrapper} (ht : w.IsTolerant)
    (hn : w.store.get? x = some ⟨name, .ownedWrapper v, true⟩) (ho : v.object = some o)
    (c : OwnedClass) : OwnedRecovery c v.cls v.owns w o x := by
  refine ⟨OwnedClass.finds_takeBack hn ho c ht, OwnedClass.finds_borrow hn ho c ht, ?_,
    OwnedClass.finds_ownedInspect hn c, c.respects_borrow x, respects_objectOf _ _,
    respects_ownedInspect c x⟩
  exact finds_mono (finds_objectOf hn rfl rfl ht ho c.tag) OwnedClass.tag_injective.eq_iff id

end Recovery

/-- Whatever has happened since an object was wrapped, a class recovers it from its wrapper if and
only if it wrapped it or is the parent class of the one that did. -/
theorem recovery_by_class {s : State} {m : Wrapping} {o x : Id} (h : s.HasWrapped m o x)
    (hlive : s.world.store.IsLive x) (ht : s.world.IsTolerant)
    (hr : s.world.store.CanRise (s.world.store.chain x)) : s.Recovery o x m := by
  obtain ⟨n, hn, hcont, hvacant⟩ := h.wraps ht.not_isClosed
  obtain ⟨out, hreachable⟩ := h.reachable
  have hs : s.begun.store.Sound := (hreachable.undisturbed ht.not_isClosed).balanced.sound
  obtain ⟨n', hn', hlive⟩ := hlive
  cases hn.symm.trans hn'
  obtain ⟨name, e, live⟩ := n
  cases hlive
  have hobject {v : OwnedWrapper} (he : e = .ownedWrapper v)
      (hv : v.object = some o ∨ v.object = none) : v.object = some o :=
    hv.resolve_right fun hnone => hvacant ⟨rfl, by rw [he]; exact congrArg Option.isNone hnone⟩
  cases m with
  | shared d =>
    cases e with
    | sharedWrapper v =>
      obtain ⟨hcls, ho, -⟩ := hcont
      cases hcls
      cases ho
      have hall := sharedRecovery (w := s.begun) hs ht hr hn
      refine ⟨hall, fun hchild source result via hsource hresult hvia => ?_⟩
      exact matches_upcast (plan_unwrap hsource .client result) (plan_unwrap hsource .child via)
        (fun _ => rfl) hresult hvia
        (finds_mono (hall .client).unwrap (iff_true_intro (Or.inr ⟨rfl, hchild⟩)) id)
        (finds_mono (hall .child).unwrap (iff_true_intro (Or.inl hchild.symm)) id)
        (SharedClass.unwrap_parent (w := s.begun) hn hchild ht .normal)
    | _ => exact hcont.elim
  | given d =>
    cases e with
    | ownedWrapper v =>
      obtain ⟨hcls, howns, ho, -⟩ := hcont
      cases hcls
      have hall := ownedRecovery (w := s.begun) ht hn (hobject rfl ho)
      rw [howns] at hall
      refine ⟨hall, fun hchild source result via hsource hresult hvia => ?_⟩
      exact matches_upcast (plan_takeBack hsource .client result) (plan_takeBack hsource .child via)
        (fun _ => rfl) hresult hvia
        (finds_mono (hall .client).takeBack (iff_true_intro ⟨Or.inr ⟨rfl, hchild⟩, rfl⟩) id)
        (finds_mono (hall .child).takeBack (iff_true_intro ⟨Or.inl hchild.symm, rfl⟩) id)
        (OwnedClass.takeBack_parent (w := s.begun) hn hchild ht .normal)
    | _ => exact hcont.elim
  | lent d =>
    cases e with
    | ownedWrapper v =>
      obtain ⟨hcls, howns, ho, -⟩ := hcont
      cases hcls
      have hall := ownedRecovery (w := s.begun) ht hn (hobject rfl ho)
      rw [howns] at hall
      exact hall
    | _ => exact hcont.elim

/-- A child object is at hand. -/
def childAtHand : List Step := [.create (.sharedObject ⟨.child 7 9, none⟩) "a"]

/-- The object of a wrapper is recovered after others have been wrapped as well. -/
theorem recovery_by_class_amongOthers :
    let wrapped := ((State.initial {} (some .default)).after childAtHand).step
      ((Wrapping.shared .child).step "a" "w")
    let s := wrapped.2.after [.create (.sharedObject ⟨.client 5, none⟩) "b",
      .shared (.wrap .client (some "b") "v")]
    s.HasWrapped (.shared .child) 0 1 ∧ s.Recovery 0 1 (.shared .child) := by
  have hreachable := ((Reachable.initial {} (some .default)).after childAtHand rfl).proceeds
  have hsource : ((State.initial {} (some .default)).after childAtHand).slots.find? "a" =
      some (Wrapping.held 0 (.shared .child)) := rfl
  have hname : (((State.initial {} (some .default)).after childAtHand).step
      ((Wrapping.shared .child).step "a" "w")).2.slots.find? "w" =
        some (Wrapping.made 1 (.shared .child)) := rfl
  have hmade := State.HasWrapped.made hreachable hsource rfl hname
  have hlater := (hmade.later (.create (.sharedObject ⟨.client 5, none⟩) "b") trivial).later
    (.shared (.wrap .client (some "b") "v")) trivial
  refine ⟨hlater, recovery_by_class hlater ⟨_, rfl, rfl⟩ (by rintro ⟨⟩) ?_⟩
  intro y hy n hn
  change y ∈ [1, 0] at hy
  simp only [List.mem_cons, List.not_mem_nil, or_false] at hy
  rcases hy with rfl | rfl <;> cases hn <;> rfl

end ObjectBoundary.Session
