import ObjectBoundary.Session.Run
import ObjectBoundary.Proofs.Acts.Supervised
import ObjectBoundary.Proofs.Session.Plans

/-!
# Steps under supervision

The acts of all steps are supervised, but for the steps that signal the start of shutdown or ask for
it and those that install the settings or tell which are in force. All but the last are composed of
simple acts.

* `Step.isApart`: the exceptions.
* `Step.supervised`: the acts of all other steps are supervised.
* `Step.composed`: which steps have composed acts.
-/

namespace ObjectBoundary.Session

open ObjectBoundary Act

variable {x : Step} {slots : Slots} {p : Plan} {k : Known}

/-! ## Answers and slots -/

theorem supervised_asName (o : Option Id) : Supervised .normal k (asName o) := by
  cases o with
  | none => exact .pure Value.null
  | some x =>
    exact supervised_get_bind (fun _ st => st.nameOf x) (f := fun text => pure (Value.text text))
      fun _ => .pure _

theorem supervised_holding (slot : Id → Slot) (o : Option Id) :
    Supervised .normal k (holding slot o) := by
  cases o with
  | none => exact .pure _
  | some x => exact .bind (supervised_asName (some x)) fun _ => .pure _

/-- Nothing is done for a null argument. -/
theorem supervised_answering {act : Act Value} (h : Supervised .normal k act) :
    Supervised .normal k (Plan.answering act).act :=
  .bind h fun _ => .pure _

theorem supervised_silently {act : Act Unit} (h : Supervised .normal k act) :
    Supervised .normal k (silently act) :=
  .bind h fun _ => .pure _

theorem supervised_asFlag {act : Act Bool} (h : Supervised .normal k act) :
    Supervised .normal k (asFlag act) :=
  .bind h fun _ => .pure _

theorem supervised_asTruth {act : Act Int32} (h : Supervised .normal k act) :
    Supervised .normal k (asTruth act) :=
  .bind h fun _ => .pure _

theorem supervised_asNumber {act : Act Int32} (h : Supervised .normal k act) :
    Supervised .normal k (asNumber act) :=
  .bind h fun _ => .pure _

/-! ## Crossing the boundary -/

theorem supervised_requireShared (x : Id) : Supervised .normal k (SharedStep.requireShared x) := by
  refine .entity _ fun e => ?_
  cases e <;> first | exact .pure _ | exact .refuse _

theorem supervised_requireOwned (x : Id) : Supervised .normal k (OwnedStep.requireOwned x) := by
  refine .entity _ fun e => ?_
  cases e <;> first | exact .pure _ | exact .refuse _

theorem supervised_targetAct (q : SharedProxy) (step : TargetStep) :
    Supervised .normal k (SharedStep.targetAct q step) := by
  cases step with
  | retain => exact supervised_silently (supervised_through (supervised_retain _))
  | release =>
    have hrelease : Supervised .normal k (ProxyClass.releaseTarget q) :=
      .bind (supervised_through (supervised_release _)) fun _ => .pure _
    exact supervised_asFlag hrelease
  | ask question =>
    have hask : Supervised .normal k (ProxyClass.askTarget question q) :=
      .bind (supervised_through (supervised_ask _ _)) fun _ => .pure _
    exact supervised_asFlag hask
  | struct => exact supervised_asName (some q.target)
  | tag => exact .pure _

theorem SharedStep.supervised {x : SharedStep} (h : x.plan slots = .ok p) :
    Supervised .normal k p.act := by
  cases planned h with
  | null => exact .pure _
  | wrap c source name o => exact .bind (c.supervised_wrap name o) fun _ => supervised_holding _ _
  | unwrap c source name y => exact .bind (c.supervised_unwrap y) fun _ => supervised_holding _ _
  | inspect c source y =>
    refine supervised_answering (.bind (c.supervised_inspect y) fun r => ?_)
    cases r <;> exact .pure _
  | retainWrapper c source y =>
    refine supervised_answering (.bind (supervised_recognises c.tag y) fun b => ?_)
    split
    · exact .bind (supervised_retain y) fun _ => .pure _
    · exact .pure _
  | releaseWrapper c source y =>
    refine supervised_answering (.bind (supervised_recognises c.tag y) fun b => ?_)
    split
    · exact supervised_asTruth (supervised_release y)
    · exact .pure _
  | receive c source name y =>
    refine .bind (supervised_requireShared y) fun _ => ?_
    exact .bind (c.supervised_receive name y) fun _ => supervised_holding _ _
  | giveBack c source name o =>
    exact .bind (c.supervised_giveBack o) fun _ => supervised_holding _ _
  | target step source o =>
    refine supervised_answering (.entity _ fun e => ?_)
    cases e with
    | sharedProxy q => exact supervised_targetAct q step
    | _ => exact .refuse _

theorem OwnedStep.supervised {x : OwnedStep} (h : x.plan slots = .ok p) :
    Supervised .normal k p.act := by
  cases planned h with
  | null => exact .pure _
  | give c source name o => exact .bind (c.supervised_give name o) fun _ => supervised_holding _ _
  | lend c source name o => exact .bind (c.supervised_lend name o) fun _ => supervised_holding _ _
  | loanStruct source name y =>
    exact .bind (supervised_discard (supervised_entity y)) fun _ => supervised_holding _ _
  | takeBack c source name y =>
    exact .bind (c.supervised_takeBack y) fun _ => supervised_holding _ _
  | borrowNull => exact supervised_answering (.pure _)
  | borrow c source y =>
    exact supervised_answering (.bind (c.supervised_borrow y) supervised_asName)
  | inspect c source y =>
    refine supervised_answering (.bind (c.supervised_inspect y) fun r => ?_)
    cases r <;> exact .pure _
  | adopt c source name y =>
    refine .bind (supervised_requireOwned y) fun _ => ?_
    exact .bind (c.supervised_adopt name y) fun _ => supervised_holding _ _
  | surrender c source name o =>
    exact .bind (c.supervised_surrender o) fun _ => supervised_holding _ _
  | reveal c source name o => exact .bind (c.supervised_reveal o) fun _ => supervised_holding _ _
  | takeTarget source name o =>
    exact .bind (ProxyClass.supervised_takeTarget o) fun _ => supervised_holding _ _

/-! ## Handles -/

theorem supervised_lookupIn (x : Id) (index : Int32) :
    Supervised .normal k (HandleStep.lookupIn x index) := by
  refine .entity _ fun e => ?_
  cases e with
  | sharedObject o =>
    dsimp only
    split
    · exact .pure _
    · exact .refuse _
  | _ => exact .refuse _

theorem supervised_shown (slot : Slot) : Supervised .normal k (HandleStep.shown slot) := by
  cases slot with
  | handle o view =>
    refine .entity _ fun e => ?_
    cases e <;> exact .pure _
  | owner o view =>
    refine .entity _ fun e => ?_
    cases e <;> first | exact .pure _ | exact .refuse _
  | loan y => exact .bind (supervised_discard (supervised_entity y)) fun _ => .pure _
  | struct y => exact .bind (supervised_struct y) fun _ => .pure _
  | device y =>
    refine .entity _ fun e => ?_
    cases e <;> first | exact .pure _ | exact .refuse _
  | _ => exact .refuse _

theorem supervised_giveUp {slot : Slot} {act : Act Unit} (h : HandleStep.giveUp slot = .ok act) :
    Supervised .normal k act := by
  cases slot with
  | handle o view => cases h; exact supervised_drop o
  | owner o view => cases h; exact supervised_dispose o
  | loan y => cases h; exact supervised_dispose y
  | _ => cases h

theorem HandleStep.supervised {x : HandleStep} (h : x.plan slots = .ok p) :
    Supervised .normal k p.act := by
  cases planned h with
  | clone _ _ o | retain _ _ o => exact .bind (supervised_retain o) fun _ => .pure _
  | drop _ _ act _ hact =>
    exact supervised_answering (supervised_silently (supervised_giveUp hact))
  | leak | reclaim | upcast => exact .pure _
  | release _ o => exact supervised_answering (supervised_asTruth (supervised_release o))
  | same => exact supervised_answering (.pure _)
  | ask question _ o => exact supervised_answering (supervised_asTruth (supervised_ask _ o))
  | reportedTag _ _ o =>
    refine supervised_answering (.entity _ fun e => ?_)
    cases e.reportedTag? <;> exact .pure _
  | value _ _ o | otherValue _ _ o =>
    exact supervised_answering (supervised_asNumber (supervised_answer _ o))
  | lookup _ index o => exact supervised_answering (supervised_lookupIn o index)
  | describe _ slot => exact supervised_answering (supervised_shown slot)

/-! ## Other steps -/

theorem isCarrier_creation {c : Creation} {v : Entity × (Id → Slot)} (h : c.entity = .ok v) :
    v.1.isCarrier = false := by
  cases c with
  | ownedObject object =>
    simp only [Creation.entity] at h
    split at h
    · cases h
      rfl
    · cases h
  | _ => cases h; rfl

theorem Creation.supervised {c : Creation} {name : String} (h : c.plan name = .ok p) :
    Supervised .normal k p.act := by
  obtain ⟨e, slot, hv, rfl⟩ := planned h
  refine .bind (.create name (isCarrier_creation hv)) fun x => ?_
  split
  · exact .pure _
  · exact supervised_holding _ _

theorem supervised_position (s : Id) (member : String) :
    Supervised .normal k (StructStep.position s member) :=
  .bind (supervised_struct s) fun _ => supervised_ofOption _ _

theorem StructStep.supervised {x : StructStep} (h : x.plan slots = .ok p) :
    Supervised .normal k p.act := by
  cases planned h with
  | call source member r y r' =>
    refine supervised_answering (.bind (supervised_position y member) fun i => ?_)
    exact .bind (supervised_call y i r') fun _ => .pure _
  | clear source member y =>
    refine supervised_answering (.bind (supervised_position y member) fun i => ?_)
    exact supervised_silently (.change y _)
  | resize source n y => exact supervised_answering (supervised_silently (.change y _))
  | size source y => exact supervised_answering (.bind (supervised_struct y) fun _ => .pure _)
  | object c source y =>
    exact supervised_answering (.bind (supervised_objectOf _ y) supervised_asName)

theorem DeviceStep.supervised {x : DeviceStep} {source : String} (h : x.plan slots source = .ok p) :
    Supervised .normal k p.act := by
  obtain ⟨y, -, rfl⟩ := planned h
  apply supervised_answering
  cases x with
  | countUp =>
    exact supervised_silently (.bind (supervised_discard (supervised_counter y)) fun _ => .raise y)
  | countDown =>
    exact supervised_asFlag (.bind (supervised_discard (supervised_counter y)) fun _ =>
      supervised_lower y)
  | countAsk q => exact supervised_asFlag (.bind (supervised_counter y) fun _ => .pure _)
  | signal => exact supervised_silently (supervised_checkerSignal y)
  | isShutdown => exact supervised_asFlag (supervised_checker y)
  | require =>
    exact supervised_silently (.bind (supervised_checker y) fun _ => supervised_require _ _)

/-- A step that signals the start of shutdown. -/
def ProcessStep.signals : ProcessStep → Bool
  | shutDown | signalShutdown => true
  | _ => false

/-- A step that signals the start of shutdown or asks for it, or one that installs the settings or
tells which are in force. -/
def ProcessStep.isApart : ProcessStep → Bool
  | shutDown | signalShutdown | hasShutDown | currentSettings | install _ => true
  | _ => false

theorem ProcessStep.supervised {x : ProcessStep} (h : x.isApart = false) :
    Supervised .normal k x.act := by
  cases x with
  | shutDown | signalShutdown | hasShutDown | currentSettings | install d => cases h
  | requireRunning => exact supervised_silently .running
  | environmentSettings =>
    have hsettings : Supervised .normal k Act.environmentSettings :=
      supervised_get_bind (fun e _ => Settings.ofEnvironment e) Supervised.pure
    exact .bind hsettings fun _ => .pure _
  | check condition message => exact supervised_silently (supervised_require _ _)
  | checkEqual left right => exact supervised_silently (supervised_require _ _)
  | fail message => exact supervised_silently (.check _)
  | failWhileUnwinding first second => exact supervised_guarded _ _ _
  | compute value message => exact supervised_computed _ _
  | _ => exact .pure _

def Step.signals : Step → Bool
  | .process step => step.signals
  | _ => false

def Step.isApart : Step → Bool
  | .process step => step.isApart
  | _ => false

/-- The acts of all steps are supervised, but for those set apart. -/
theorem Step.supervised (h : x.plan slots = .ok p) (hx : x.isApart = false) :
    Supervised .normal k p.act := by
  cases x with
  | create c name => exact Creation.supervised h
  | handle step => exact HandleStep.supervised h
  | shared step => exact SharedStep.supervised h
  | owned step => exact OwnedStep.supervised h
  | struct step => exact StructStep.supervised h
  | device step source => exact DeviceStep.supervised h
  | process step =>
    cases h
    exact supervised_answering (ProcessStep.supervised hx)

/-! ## All steps -/

/-- The steps that signal the start of shutdown, ask for it or install settings have composed acts
as well. -/
theorem ProcessStep.composed {x : ProcessStep} (hx : x ≠ .currentSettings) : Composed x.act := by
  cases hapart : x.isApart with
  | false => exact (ProcessStep.supervised hapart : Supervised .normal (fun _ => none) _).composed
  | true =>
    cases x with
    | shutDown =>
      exact .bind (.contained (.bind (.emit rfl) fun _ => composed_signalShutdown)) fun _ => .pure _
    | signalShutdown => exact .bind composed_signalShutdown fun _ => .pure _
    | hasShutDown =>
      exact .bind (composed_get_bind (fun _ d _ => d) Composed.pure) fun _ => .pure _
    | install d =>
      refine .bind (.install _) fun r => ?_
      cases r <;> exact .pure _
    | currentSettings => exact absurd rfl hx
    | _ => cases hapart

/-- All steps but the one that tells the settings in force. -/
theorem Step.composed (h : x.plan slots = .ok p) (hx : x ≠ .process .currentSettings) :
    Composed p.act := by
  cases x with
  | process step =>
    cases h
    exact .bind (ProcessStep.composed fun heq => hx (congrArg Step.process heq)) fun _ => .pure _
  | _ => exact (Step.supervised h rfl : Supervised .normal (fun _ => none) _).composed

end ObjectBoundary.Session
