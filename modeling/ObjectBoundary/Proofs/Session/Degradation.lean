import ObjectBoundary.Proofs.Acts.Rejections
import ObjectBoundary.Proofs.Session.Twins

/-!
# Sessions whose failed checks are not fatal

Where failed checks are not fatal, a process copes with all misuse that its checks notice. No step
unwinds, and only a reference beyond the limit of a count ends the process. Every failed check is
reported by a line of its own, and an operation that rejects what it was given answers nothing.

* `Step.rejects`: what steps answer when they reject what they were given.
* `State.Degrades`: a step that copes with misuse.
* `degrades_gracefully`: where failed checks are not fatal, every step does.
-/

namespace ObjectBoundary.Session

open ObjectBoundary Act

variable {s : State} {x : Step} {slots : Slots} {p : Plan} {w : World}

/-! ## Answers that tell nothing -/

/-- No object and no structure, no, or the number zero. -/
def Value.isEmpty : Value → Bool
  | .null => true
  | .flag b => !b
  | .number n => n == 0
  | _ => false

/-- Nothing is answered, and the slot that is made holds nothing. -/
def IsNothing (r : Value × Slot) : Prop := r.1.isEmpty = true ∧ r.2 = .null

/-- Where nothing is recovered, nothing is held. -/
theorem rejects_holding {slot : Id → Slot} {act : Act (Option Id)}
    (h : Rejects act w (· = none)) : Rejects (act >>= holding slot) w IsNothing := by
  refine rejects_bind_eq h (fun o _ => rejects_of_accepts (respects_holding slot o)) fun _ => ?_
  exact ends_pure ⟨rfl, rfl⟩

theorem rejects_answering {act : Act Value} (h : Rejects act w fun v => v.isEmpty = true) :
    Rejects (Plan.answering act).act w IsNothing :=
  rejects_map h fun _ hv => ⟨hv, rfl⟩

/-- Where nothing is found, nothing is named. -/
theorem rejects_asName {act : Act (Option Id)} (h : Rejects act w (· = none)) :
    Rejects (act >>= asName) w fun v => v.isEmpty = true := by
  exact rejects_bind_eq h (fun o _ => rejects_of_accepts (respects_asName o)) fun _ => ends_pure rfl

/-- Where there is no report, nothing is answered. -/
theorem rejects_report {α : Type} {act : Act (Option α)} {f : Option α → Act Value}
    (h : Rejects act w (· = none)) (hf : ∀ o, ∃ value, f o = pure value)
    (hnone : f none = pure .null) : Rejects (act >>= f) w fun v => v.isEmpty = true := by
  refine rejects_bind_eq h (fun o _ => ?_) fun _ => ?_
  · obtain ⟨value, hvalue⟩ := hf o
    rw [hvalue]
    exact rejects_of_accepts (respects_pure value)
  · rw [hnone]
    exact ends_pure rfl

/-! ## Crossing the boundary -/

theorem accepts_targetAct (q : SharedProxy) (step : TargetStep) :
    Respects World.Accepts (SharedStep.targetAct q step) w := by
  cases step with
  | retain => exact respects_silently (respects_through fun _ _ => accepts_retain _)
  | release => exact respects_map (respects_map (respects_through fun _ _ => accepts_release _))
  | ask question => exact respects_map (respects_map (respects_through fun _ _ => accepts_ask _ _))
  | struct => exact respects_asName (some q.target)
  | tag => exact respects_pure _

theorem SharedStep.rejects {x : SharedStep} (h : x.plan slots = .ok p) :
    Rejects p.act w IsNothing := by
  cases planned h with
  | null => exact rejects_of_accepts (respects_pure _)
  | wrap c source name o =>
    apply rejects_of_accepts
    exact respects_bind (c.accepts_wrap name o) fun _ _ _ => respects_holding _ _
  | unwrap c source name y => exact rejects_holding (c.rejects_unwrap y)
  | inspect c source y =>
    refine rejects_answering (rejects_report (c.rejects_inspect y) (fun r => ?_) rfl)
    cases r <;> exact ⟨_, rfl⟩
  | retainWrapper c source y =>
    refine rejects_answering (rejects_bind_eq (rejects_recognises c.tag y) (fun b _ => ?_) fun _ =>
      ends_pure rfl)
    apply rejects_of_accepts
    split
    · exact respects_map (accepts_retain y)
    · exact respects_pure _
  | releaseWrapper c source y =>
    refine rejects_answering (rejects_bind_eq (rejects_recognises c.tag y) (fun b _ => ?_) fun _ =>
      ends_pure rfl)
    apply rejects_of_accepts
    split
    · exact respects_map (accepts_release y)
    · exact respects_pure _
  | receive c source name y =>
    refine rejects_of_accepts (respects_bind respects_requireShared fun _ _ _ => ?_)
    exact respects_bind (c.accepts_receive name y) fun _ _ _ => respects_holding _ _
  | giveBack c source name o => exact rejects_holding (c.rejects_giveBack o)
  | target step source o =>
    refine rejects_of_accepts (respects_answering (respects_entity_bind fun n _ _ => ?_))
    cases n.entity with
    | sharedProxy q => exact accepts_targetAct q step
    | _ => exact respects_refuse _

theorem OwnedStep.rejects {x : OwnedStep} (h : x.plan slots = .ok p)
    (hx : ∀ c source name, x ≠ .surrender c source name) : Rejects p.act w IsNothing := by
  cases planned h with
  | null => exact rejects_of_accepts (respects_pure _)
  | give | lend =>
    apply rejects_of_accepts
    exact respects_bind (ProxyClass.accepts_introduce _ _ _ _) fun _ _ _ => respects_holding _ _
  | loanStruct source name y =>
    refine rejects_of_accepts (respects_bind (respects_discard (respects_entity y)) fun _ _ _ => ?_)
    exact respects_holding _ _
  | takeBack c source name y => exact rejects_holding (c.rejects_takeBack y)
  | borrowNull => exact rejects_of_accepts (respects_answering (respects_pure _))
  | borrow c source y => exact rejects_answering (rejects_asName (c.rejects_borrow y))
  | inspect c source y =>
    refine rejects_answering (rejects_report (c.rejects_inspect y) (fun r => ?_) rfl)
    cases r <;> exact ⟨_, rfl⟩
  | adopt c source name y =>
    refine rejects_of_accepts (respects_bind respects_requireOwned fun _ _ _ => ?_)
    exact respects_bind (ProxyClass.accepts_introduce _ _ _ _) fun _ _ _ => respects_holding _ _
  | surrender c source name => exact absurd rfl (hx c source name)
  | reveal c source name o => exact rejects_holding (c.rejects_reveal o)
  | takeTarget source name o =>
    refine rejects_of_accepts (respects_bind (ProxyClass.accepts_takeTarget o) fun _ _ _ => ?_)
    exact respects_holding _ _

/-- A step that takes the structure out of a proxy hands it out although it has no `del`. -/
def State.HandsOut (s : State) (x : Step) (r : Value × Slot) (w : World) : Prop :=
  w.rejections = [.failed .undeletable] ∧
    ∃ c source name o view y, x = .owned (.surrender c source name) ∧
      source.bind s.slots.find? = some (.owner o view) ∧ s.world.store.HoldsUndeletable o y ∧
      r = (.text (w.store.nameOf y), .struct y)

/-- What a step that takes the structure out of a proxy answers. -/
theorem ends_surrenderPlan {c : ProxyClass} {source : Option String} {name : String}
    (h : OwnedStep.plan s.slots (.surrender c source name) = .ok p) :
    Ends p.act s.begun
      (fun r w' => s.begun.Accepts w' ∨ IsNothing r ∨
        s.HandsOut (.owned (.surrender c source name)) r w') fun _ _ => True := by
  cases OwnedStep.planned h with
  | null => exact ends_pure (Or.inl rfl)
  | surrender _ _ _ o ho =>
    refine ends_bind (c.ends_surrender o) fun r w₁ h₁ => ?_
    rcases h₁ with h₁ | rfl | ⟨y, rfl, hholds, h₁⟩
    · have hholding : Respects World.Accepts (holding .struct r) w₁ := respects_holding _ r
      refine ends_mono (ends_of_respects hholding) (fun _ _ h => ?_) fun _ _ _ => trivial
      exact Or.inl (trans_of World.Accepts h₁ h)
    · exact ends_pure (Or.inr (Or.inl ⟨rfl, rfl⟩))
    · have hhands : s.HandsOut (.owned (.surrender c source name))
          (.text (w₁.store.nameOf y), .struct y) w₁ :=
        ⟨h₁, c, source, name, o, c.ownedInterface, y, rfl, Slots.find?_of_argument ho nofun,
          hholds, rfl⟩
      exact fun _ => Or.inr (Or.inr hhands)

/-! ## Other steps -/

theorem accepts_giveUp {slot : Slot} {act : Act Unit} (h : HandleStep.giveUp slot = .ok act) :
    Respects World.Accepts act w := by
  cases slot with
  | handle o view => cases h; exact accepts_drop o
  | owner o view => cases h; exact accepts_dispose o
  | loan y => cases h; exact accepts_dispose y
  | _ => cases h

theorem HandleStep.accepts {x : HandleStep} (h : x.plan slots = .ok p) :
    Respects World.Accepts p.act w := by
  cases planned h with
  | clone _ _ o | retain _ _ o => exact respects_map (accepts_retain o)
  | drop _ _ act _ hact => exact respects_answering (respects_silently (accepts_giveUp hact))
  | leak | reclaim | upcast => exact respects_pure _
  | release _ o => exact respects_answering (respects_map (accepts_release o))
  | same => exact respects_answering (respects_pure _)
  | ask question _ o => exact respects_answering (respects_map (accepts_ask _ o))
  | reportedTag _ _ o =>
    refine respects_answering (respects_entity_bind fun n _ _ => ?_)
    cases n.entity.reportedTag? <;> exact respects_pure _
  | value _ _ o | otherValue _ _ o => exact respects_answering (respects_map (accepts_answer _ o))
  | lookup _ index o => exact respects_answering (respects_lookupIn o index)
  | describe _ slot => exact respects_answering (respects_shown slot)

theorem Creation.accepts {c : Creation} {name : String} (h : c.plan name = .ok p) :
    Respects World.Accepts p.act w := by
  obtain ⟨e, slot, -, rfl⟩ := planned h
  refine respects_bind (accepts_create name _) fun x _ _ => ?_
  split
  · exact respects_pure _
  · exact respects_holding _ _

theorem DeviceStep.accepts {x : DeviceStep} {source : String} (h : x.plan slots source = .ok p) :
    Respects World.Accepts p.act w := by
  have hcounter {y : Id} {w : World} : Respects World.Accepts (counter y) w := by
    refine respects_entity_bind fun n _ _ => ?_
    cases n.entity <;> first | exact respects_pure _ | exact respects_refuse _
  have hchecker {y : Id} {w : World} : Respects World.Accepts (checker y) w := by
    refine respects_entity_bind fun n _ _ => ?_
    cases n.entity <;> first | exact respects_pure _ | exact respects_refuse _
  obtain ⟨y, -, rfl⟩ := planned h
  apply respects_answering
  cases x with
  | countUp =>
    exact respects_silently (respects_bind (respects_discard hcounter) fun _ _ _ => accepts_raise y)
  | countDown =>
    exact respects_map (respects_bind (respects_discard hcounter) fun _ _ _ => accepts_lower y)
  | countAsk q => exact respects_map (respects_map hcounter)
  | signal =>
    refine respects_silently (respects_bind hchecker fun _ _ _ => ?_)
    exact respects_bind (accepts_put y _) fun _ _ _ => accepts_require rfl
  | isShutdown => exact respects_map hchecker
  | require => exact respects_silently (respects_bind hchecker fun _ _ _ => accepts_require rfl)

theorem accepts_change (y : Id) (f : Structure → Structure) :
    Respects World.Accepts (StructStep.change y f) w := by
  refine respects_entity_bind fun n _ _ => respects_bind (respects_ofOption _ _) fun t _ _ => ?_
  exact accepts_put y _

theorem accepts_signalShutdown : Respects World.Accepts signalShutdown w := by
  refine respects_bind accepts_settings fun s _ _ => ?_
  split
  · refine respects_bind respects_get fun w' _ _ => ?_
    refine respects_bind (fun _ => rfl) fun _ _ _ => ?_
    exact respects_bind (accepts_require rfl) fun _ _ _ => accepts_emit rfl
  · exact respects_pure _

theorem accepts_install (t : Settings) : Respects World.Accepts (install t) w := by
  refine respects_bind respects_get fun w' _ _ => ?_
  split
  · exact respects_pure _
  · refine respects_bind (fun _ => rfl) fun _ _ _ => ?_
    exact respects_map (accepts_emit rfl)

theorem ProcessStep.accepts (x : ProcessStep) : Respects World.Accepts x.act w := by
  cases x with
  | shutDown =>
    apply respects_silently
    exact respects_contained (respects_bind (accepts_emit rfl) fun _ _ _ => accepts_signalShutdown)
  | signalShutdown => exact respects_silently accepts_signalShutdown
  | requireRunning => exact respects_silently accepts_requireRunning
  | hasShutDown => exact respects_map (respects_map respects_get)
  | currentSettings => exact respects_map accepts_settings
  | environmentSettings => exact respects_map (respects_map respects_get)
  | install d =>
    refine respects_bind (accepts_install _) fun r _ _ => ?_
    cases r <;> exact respects_pure _
  | check condition message => exact respects_silently (accepts_require (by cases message <;> rfl))
  | checkEqual left right => exact respects_silently (accepts_require rfl)
  | fail message => exact respects_silently (accepts_check rfl)
  | failWhileUnwinding first second =>
    refine respects_ensuring (respects_map (accepts_check rfl)) fun _ _ => ?_
    exact respects_bind (accepts_check rfl) fun _ _ _ => accepts_emit rfl
  | compute value message =>
    refine respects_contained ?_
    cases message with
    | none => exact respects_pure _
    | some text => exact respects_map (accepts_check rfl)
  | _ => exact respects_pure _

/-- The step calls a function member of a table, which is not a member of this library. -/
def State.CallsTable (s : State) (x : Step) : Prop :=
  ∃ source member r y, x = .struct (.call source member r) ∧
    s.slots.structAt (some source) = some y ∧ IsTable s.world y

/-- The answer to a reply that tells nothing. -/
theorem isEmpty_replyValue {r : Reply} (h : r.isEmpty = true) :
    (StructStep.replyValue r).isEmpty = true := by
  cases r with
  | absent => cases h
  | nothing => rfl
  | number n =>
    rw [beq_iff_eq.mp h]
    rfl

theorem StructStep.rejects {x : StructStep} (h : x.plan s.slots = .ok p) :
    Rejects p.act s.begun fun r =>
      IsNothing r ∨ s.CallsTable (.struct x) ∧ r = (.number (-1), .null) := by
  cases planned h with
  | call source member r y r' hy =>
    refine rejects_map (P := fun value => value.isEmpty = true ∨
      s.CallsTable (.struct (.call source member r)) ∧ value = .number (-1)) ?_ fun value hvalue =>
        hvalue.imp (fun h => ⟨h, rfl⟩) fun h => ⟨h.1, by rw [h.2]⟩
    refine ends_position_bind fun n t i _ _ _ => ?_
    change Rejects (Act.call y i r' >>= fun reply => pure (replyValue reply)) s.begun _
    refine rejects_map (rejects_call y i r') fun reply hreply => ?_
    refine hreply.imp isEmpty_replyValue fun h =>
      ⟨⟨source, member, r, y, rfl, Slots.structAt_of_argument hy, h.1⟩, ?_⟩
    rw [h.2]
    rfl
  | clear source member y =>
    have hposition : Respects World.Accepts (StructStep.position y member) s.begun :=
      respects_bind (respects_struct y) fun _ _ _ => respects_ofOption _ _
    refine rejects_of_accepts (respects_answering (respects_bind hposition fun i _ _ => ?_))
    exact respects_silently (accepts_change y _)
  | resize source n y =>
    exact rejects_of_accepts (respects_answering (respects_silently (accepts_change y _)))
  | size source y =>
    exact rejects_of_accepts (respects_answering (respects_map (respects_struct y)))
  | object c source y =>
    exact ends_mono (rejects_answering (rejects_asName (rejects_objectOf c.tag y)))
      (fun _ _ h => h.imp_right Or.inl) fun _ _ h => h

/-- What a step is done with that rejects what it was given. -/
theorem Step.rejects (h : x.plan s.slots = .ok p) :
    Ends p.act s.begun
      (fun r w' => s.begun.Accepts w' ∨ IsNothing r ∨
        s.CallsTable x ∧ r = (.number (-1), .null) ∨ s.HandsOut x r w') fun _ _ => True := by
  have accepting (h : Respects World.Accepts p.act s.begun) :
      Rejects p.act s.begun fun r => IsNothing r :=
    rejects_of_accepts h
  have nothing (h : Rejects p.act s.begun IsNothing) :
      Ends p.act s.begun
        (fun r w' => s.begun.Accepts w' ∨ IsNothing r ∨
          s.CallsTable x ∧ r = (.number (-1), .null) ∨ s.HandsOut x r w') fun _ _ => True :=
    ends_mono h (fun _ _ h => h.imp_right Or.inl) fun _ _ h => h
  cases x with
  | create c name => exact nothing (accepting (Creation.accepts h))
  | handle step => exact nothing (accepting (HandleStep.accepts h))
  | shared step => exact nothing (SharedStep.rejects h)
  | owned step =>
    by_cases hx : ∀ c source name, step ≠ .surrender c source name
    · exact nothing (OwnedStep.rejects h hx)
    · push Not at hx
      obtain ⟨c, source, name, rfl⟩ := hx
      exact ends_mono (ends_surrenderPlan h)
        (fun _ _ h => h.imp_right fun h => h.imp_right Or.inr) fun _ _ h => h
  | struct step =>
    exact ends_mono (StructStep.rejects h) (fun _ _ h => h.imp_right fun h => h.imp_right Or.inl)
      fun _ _ h => h
  | device step source => exact nothing (accepting (DeviceStep.accepts h))
  | process step =>
    cases h
    exact nothing (accepting (respects_answering (ProcessStep.accepts step)))

/-! ## The lines that report failed checks -/

/-- The failure that an event reports. -/
def failure? : Event → Option Failure
  | .failed failure => some failure
  | _ => none

/-- The checks that have failed, in order. -/
def failed (w : World) : List Failure := w.log.filterMap failure?

theorem failed_eq (w : World) : failed w = w.failures.filterMap failure? := by
  rw [failed, World.failures, List.filterMap_filter]
  refine congrArg (List.filterMap · w.log) (funext fun e => ?_)
  cases e <;> rfl

/-- Every failed check is reported by one line, and nothing else is reported so. -/
theorem filter_isErrorLine (name : Id → String) (log : List Event) :
    (log.filterMap (Event.line? name)).filter isErrorLine =
      (log.filterMap failure?).map fun failure => "ERROR " ++ failure.message := by
  induction log with
  | nil => rfl
  | cons e rest ih =>
    rw [List.filterMap_cons, List.filterMap_cons]
    cases hline : e.line? name with
    | none =>
      cases e with
      | raised _ | lowered _ => exact ih
      | _ => cases hline
    | some line =>
      rw [List.filter_cons, isErrorLine_line? hline, ih]
      cases e <;> cases hline <;> rfl

theorem mem_rejections {failure : Failure} (h : failure ∈ failed w)
    (hr : failure.isRejection = true) : .failed failure ∈ w.rejections := by
  obtain ⟨e, he, hf⟩ := List.mem_filterMap.mp h
  have heq : e = .failed failure := by
    cases e with
    | failed f => exact congrArg Event.failed (Option.some.inj hf)
    | _ => cases hf
  subst heq
  exact List.mem_filter.mpr ⟨List.mem_filter.mpr ⟨he, rfl⟩, hr⟩

/-! ## Steps that cope with misuse -/

namespace State

/-- A step that copes with misuse. It does not unwind, and it ends the process only by a count that
rises beyond the limit. Every failed check is reported once. If the step rejects what it was given,
it answers nothing; only a structure without `del` is taken out of its proxy all the same. -/
structure Degrades (s : State) (x : Step) : Prop where
  not_unwound : ∀ failure, (s.step x).1.outcome ≠ .unwound failure
  exhausted : ∀ failure, (s.step x).1.outcome = .aborted failure →
    failure = none ∧ (s.step x).2.world.Exhausted
  reported : (s.step x).1.lines.filter isErrorLine =
    (failed (s.step x).2.world).map fun failure => "ERROR " ++ failure.message
  nothing : ∀ value failure, (s.step x).1.outcome = .done value →
    failure ∈ failed (s.step x).2.world → failure.isRejection = true →
      IsNothing (value, s.made x) ∨ s.CallsTable x ∧ (value, s.made x) = (.number (-1), .null) ∨
        failure = .undeletable ∧ s.HandsOut x (value, s.made x) (s.step x).2.world

/-- A slot that is made holds what the act brings; a step that makes none leaves it unsaid. -/
theorem made_cases {slot : Slot} {w' : World} (hp : x.plan s.slots = .ok p)
    (hstep : (s.step x).2 = ⟨w', p.makes.elim (remaining s.slots p)
      fun name => (remaining s.slots p).add name slot⟩) :
    p.makes = none ∧ s.made x = .null ∨ s.made x = slot := by
  cases hm : p.makes with
  | none =>
    refine Or.inl ⟨rfl, ?_⟩
    rw [made, hp]
    show (p.makes.bind _).getD Slot.null = Slot.null
    rw [hm]
    rfl
  | some name =>
    right
    apply made_eq hp hstep
    intro hnone
    rw [hm] at hnone
    cases hnone

/-- What a step that is done answers if it rejects what it was given. -/
theorem nothing_of_done {value : Value} {slot : Slot} {w' : World} {failure : Failure}
    (hp : x.plan s.slots = .ok p) (hfree : nameIsFree s.slots p = true)
    (h : p.act .normal s.begun = (.done (value, slot), w')) (hf : failure ∈ failed w')
    (hr : failure.isRejection = true) :
    IsNothing (value, s.made x) ∨ s.CallsTable x ∧ (value, s.made x) = (.number (-1), .null) ∨
      failure = .undeletable ∧ s.HandsOut x (value, s.made x) w' := by
  have hmade := made_cases hp (congrArg Prod.snd (step_of_done hp hfree h))
  have hnull (hslot : slot = .null) : s.made x = .null :=
    hmade.elim And.right fun h => h.trans hslot
  have hrejected := mem_rejections hf hr
  rcases ends_of_done (Step.rejects hp) h with haccepts | hnothing | ⟨htable, hval⟩ | hhands
  · rw [haccepts] at hrejected
    cases hrejected
  · exact Or.inl ⟨hnothing.1, hnull hnothing.2⟩
  · obtain ⟨rfl, hslot⟩ := Prod.mk.inj hval
    exact Or.inr (Or.inl ⟨htable, by rw [hnull hslot]⟩)
  · refine Or.inr (Or.inr ?_)
    have hfailure : failure = .undeletable := by
      rw [hhands.1, List.mem_singleton] at hrejected
      cases hrejected
      rfl
    rcases hmade with ⟨hm, -⟩ | hmade
    · obtain ⟨-, c, source, name, o, view, y, rfl, -⟩ := hhands
      cases OwnedStep.planned (x := .surrender c source name) hp <;> cases hm
    · rw [hmade]
      exact ⟨hfailure, hhands⟩

/-- Telling the settings in force does not end the process. -/
theorem currentSettings_ne_aborted (failure : Option Failure) (w' : World) :
    (Plan.answering (ProcessStep.currentSettings).act).act .normal w ≠ (.aborted failure, w') := by
  obtain ⟨w₁, happly, -⟩ := settings_apply .normal w
  show ((settings >>= fun t => pure (Value.settings t)) >>=
    fun v => pure (v, Slot.null)) .normal w ≠ _
  rw [bind_apply, bind_apply, happly]
  nofun

/-- The lines of a step that report failed checks. -/
theorem filter_step (h : s.accepts x = true) : (s.step x).1.lines.filter isErrorLine =
    (failed (s.step x).2.world).map fun failure => "ERROR " ++ failure.message := by
  obtain ⟨p, hp, hfree, -⟩ := accepts_cases h
  rw [step_of_plan hp hfree]
  exact filter_isErrorLine _ _

/-- A step copes with misuse if no settings that make failed checks fatal are in force after it. -/
theorem degrades (h : s.accepts x = true) (hf : ¬ (s.step x).2.world.IsFatal) : s.Degrades x := by
  obtain ⟨p, hp, hfree, hcases⟩ := accepts_cases h
  have hreported := filter_step h
  rcases hcases with ⟨value, slot, w', hact, houtcome, hworld⟩ | ⟨failure, w', hact, hworld⟩ |
    ⟨failure, w', hact, houtcome, hworld⟩
  · refine ⟨?_, ?_, hreported, ?_⟩ <;> rw [houtcome]
    · nofun
    · nofun
    · rintro _ failure ⟨⟩ hfailed hr
      rw [hworld] at hfailed ⊢
      exact nothing_of_done hp hfree hact hfailed hr
  · rw [hworld] at hf
    exact absurd (ends_of_unwound (Step.ends_fatal hp s.begun) hact) hf
  · refine ⟨?_, ?_, hreported, ?_⟩ <;> rw [houtcome]
    · nofun
    · rintro _ ⟨⟩
      rw [hworld] at hf ⊢
      by_cases hx : x = .process .currentSettings
      · subst hx
        cases hp
        exact absurd hact (currentSettings_ne_aborted failure w')
      · exact (Step.composed hp hx).exhausted hact hf
    · nofun

end State

/-- Where failed checks are not fatal, a session copes with all misuse that its checks notice. A
failed check is passed over wherever it is made, and reported once; no step unwinds, and only a
count that rises beyond the limit ends the process; and a step that rejects what it was given
answers nothing, but for a structure without `del`, which leaves its proxy all the same. -/
theorem degrades_gracefully (e : Environment) (c : Option Settings) (xs : List Step) (x : Step) :
    let s := (State.initial e c).after xs
    s.accepts x = true → ¬ (s.step x).2.world.IsFatal →
      s.Degrades x ∧ ∀ (w : World) (failure : Failure) (phase : Phase),
        w.inForce.fatalChecks = false → ∃ w', check failure phase w = (.done (), w') ∧
          w.Quiet w' ∧ failed w' = failed w ++ [failure] := by
  intro s haccepts hf
  refine ⟨State.degrades haccepts hf, fun w failure phase hlenient => ?_⟩
  obtain ⟨w', hquiet, hfailures, happly⟩ := check_apply failure phase w
  rw [hlenient] at happly
  refine ⟨w', happly, hquiet, ?_⟩
  rw [failed_eq, failed_eq, hfailures, List.filterMap_append]
  rfl

/-- The wrapper of a parent interface is not unwrapped as one of the child, which is reported. Only
a counter that was released below zero and is counted up again ends the process. -/
theorem degrades_gracefully_misused :
    let s := (State.initial {} (some ⟨false, true⟩)).after
      [.create (.sharedObject ⟨.client 7, none⟩) "a", .shared (.wrap .client (some "a") "w"),
        .create .counter "c", .device .countDown "c"]
    let unwrap : Step := .shared (.unwrap .child (some "w") "b")
    let countUp : Step := .device .countUp "c"
    (s.Degrades unwrap ∧ (s.step unwrap).1.outcome = .done .null ∧ s.made unwrap = .null ∧
      (s.step unwrap).1.lines =
        ["ERROR unexpected class type TRANSLATOR_TEST_REF_PTR_CLIENT"]) ∧
      s.Degrades countUp ∧ (s.step countUp).1.outcome = .aborted none := by
  intro s unwrap countUp
  have hlenient {x : Step} (h : (s.step x).2.world.settings = some ⟨false, true⟩) :
      ¬ (s.step x).2.world.IsFatal := by
    rintro ⟨t, ht, hfatal⟩
    rw [h] at ht
    cases ht
    cases hfatal
  have hunwrap := degrades_gracefully {} (some ⟨false, true⟩) _ unwrap rfl (hlenient rfl)
  have hcountUp := degrades_gracefully {} (some ⟨false, true⟩) _ countUp rfl (hlenient rfl)
  exact ⟨⟨hunwrap.1, rfl, rfl, by decide⟩, hcountUp.1, rfl⟩

end ObjectBoundary.Session
