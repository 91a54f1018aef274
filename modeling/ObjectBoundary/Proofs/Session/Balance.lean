import ObjectBoundary.Proofs.Session.Steps
import ObjectBoundary.Proofs.Session.Structures
import ObjectBoundary.Proofs.Session.Crossings

/-!
# The balance of a session

In every state that sessions reach without a failed check of the start of shutdown, the
references to an entity that no wrapper or proxy owns are those that slots hold and those in the
ledger.

* `State.proceeds_cases`: what a step that proceeds has done.
* `Balanced`: the invariant.
* `Balanced.step`: a step keeps it.
* `Reachable.balanced`: so it holds in every reachable state.
-/

namespace ObjectBoundary.Session

open ObjectBoundary

variable {s : State} {x : Step} {out : Ledger} {slots : Slots} {w : World} {p : Plan}

/-! ## Steps that proceed -/

namespace State

/-- The world in which a step begins, with a log of its own. -/
def begun (s : State) : World := { s.world with log := [] }

section Outcomes

variable (hp : x.plan s.slots = .ok p) (hfree : nameIsFree s.slots p = true)
include hp hfree

theorem step_of_plan :
    s.step x = (answerTo s.world (s.carryOut p).1 (s.carryOut p).2.1,
      ⟨(s.carryOut p).2.1, (s.carryOut p).2.2⟩) := by
  rw [step, hp]
  simp only [hfree, if_true]

theorem step_of_done {value : Value} {slot : Slot} {w' : World}
    (h : p.act .normal s.begun = (.done (value, slot), w')) :
    s.step x = (answerTo s.world (.done value) w', ⟨w', p.makes.elim (remaining s.slots p)
      fun name => (remaining s.slots p).add name slot⟩) := by
  have hcarry : s.carryOut p = (.done value, w', p.makes.elim (remaining s.slots p)
      fun name => (remaining s.slots p).add name slot) := by
    unfold begun at h
    rw [carryOut, h]
  rw [step_of_plan hp hfree, hcarry]

theorem step_of_unwound {failure : Failure} {w' : World}
    (h : p.act .normal s.begun = (.unwound failure, w')) :
    s.step x = (answerTo s.world (.unwound failure) w', ⟨w', remaining s.slots p⟩) := by
  have hcarry : s.carryOut p = (.unwound failure, w', remaining s.slots p) := by
    unfold begun at h
    rw [carryOut, h]
  rw [step_of_plan hp hfree, hcarry]

theorem step_of_aborted {failure : Option Failure} {w' : World}
    (h : p.act .normal s.begun = (.aborted failure, w')) :
    s.step x = (answerTo s.world (.aborted failure) w', ⟨w', remaining s.slots p⟩) := by
  have hcarry : s.carryOut p = (.aborted failure, w', remaining s.slots p) := by
    unfold begun at h
    rw [carryOut, h]
  rw [step_of_plan hp hfree, hcarry]

theorem not_proceeds_of_aborted {failure : Option Failure} {w' : World}
    (h : p.act .normal s.begun = (.aborted failure, w')) : ¬ s.Proceeds x := by
  rw [Proceeds, step_of_aborted hp hfree h]
  exact id

theorem not_proceeds_of_refused {misuse : Misuse} {w' : World}
    (h : p.act .normal s.begun = (.refused misuse, w')) : ¬ s.Proceeds x := by
  have hcarry : s.carryOut p = (.refused misuse, s.begun, s.slots) := by
    unfold begun at h ⊢
    rw [carryOut, h]
  rw [Proceeds, step_of_plan hp hfree, hcarry]
  exact id

end Outcomes

section Answering

variable {act : Act Value} (hp : x.plan s.slots = .ok (.answering act))
include hp

/-- A step that only answers ends as its act does. -/
theorem outcome_of_answering : (s.step x).1.outcome = (act .normal s.begun).1 := by
  have happly : (Plan.answering act).act .normal s.begun = _ := Act.bind_apply _ _ _ _
  rw [step_of_plan hp rfl]
  unfold begun at happly ⊢
  unfold carryOut
  rw [happly]
  rcases act .normal { s.world with log := [] } with ⟨_ | _ | _ | _, w'⟩ <;> rfl

theorem world_of_answering (ho : ∀ m, (act .normal s.begun).1 ≠ .refused m) :
    (s.step x).2.world = (act .normal s.begun).2 := by
  have happly : (Plan.answering act).act .normal s.begun = _ := Act.bind_apply _ _ _ _
  rw [step_of_plan hp rfl]
  unfold begun at happly ho ⊢
  unfold carryOut
  rw [happly]
  rcases h : act .normal { s.world with log := [] } with ⟨_ | _ | _ | misuse, w'⟩
  · rfl
  · rfl
  · rfl
  · exact absurd (congrArg Prod.fst h) (ho misuse)

theorem step_of_answering {o : Outcome Value} {w' : World} (h : act .normal s.begun = (o, w'))
    (ho : ∀ m, o ≠ .refused m) : (s.step x).1.outcome = o ∧ (s.step x).2.world = w' := by
  rw [outcome_of_answering hp, world_of_answering hp (by rwa [h]), h]
  exact ⟨rfl, rfl⟩

end Answering

/-- A step that proceeds is done, or it unwinds and makes no slot. -/
theorem proceeds_cases (h : s.Proceeds x) :
    ∃ p, x.plan s.slots = .ok p ∧ nameIsFree s.slots p = true ∧
      ((∃ value slot w', p.act .normal s.begun = (.done (value, slot), w') ∧
          (s.step x).1.outcome = .done value ∧
          (s.step x).2 = ⟨w', p.makes.elim (remaining s.slots p)
            fun name => (remaining s.slots p).add name slot⟩) ∨
        ∃ failure w', p.act .normal s.begun = (.unwound failure, w') ∧
          (s.step x).1.outcome = .unwound failure ∧
          (s.step x).2 = ⟨w', remaining s.slots p⟩) := by
  cases hp : x.plan s.slots with
  | error misuse =>
    rw [Proceeds, step, hp] at h
    exact h.elim
  | ok p =>
    cases hfree : nameIsFree s.slots p with
    | false =>
      rw [Proceeds, step, hp] at h
      simp only [hfree, Bool.false_eq_true, if_false] at h
    | true =>
      refine ⟨p, rfl, hfree, ?_⟩
      cases hr : p.act .normal s.begun with
      | mk outcome w' =>
        cases outcome with
        | done r =>
          have hstep := step_of_done hp hfree hr
          exact Or.inl ⟨r.1, r.2, w', rfl, by rw [hstep]; rfl, by rw [hstep]⟩
        | unwound failure =>
          have hstep := step_of_unwound hp hfree hr
          exact Or.inr ⟨failure, w', rfl, by rw [hstep]; rfl, by rw [hstep]⟩
        | aborted failure => exact absurd h (not_proceeds_of_aborted hp hfree hr)
        | refused misuse => exact absurd h (not_proceeds_of_refused hp hfree hr)

/-- Of a slot that is made, the state after the step tells. -/
theorem made_eq {slot : Slot} {w' : World} (hp : x.plan s.slots = .ok p)
    (hstep : (s.step x).2 = ⟨w', p.makes.elim (remaining s.slots p)
      fun name => (remaining s.slots p).add name slot⟩)
    (hnull : p.makes = none → slot = .null) : s.made x = slot := by
  rw [made, hp]
  show (p.makes.bind (s.step x).2.slots.find?).getD .null = slot
  rw [hstep]
  cases hm : p.makes with
  | none => exact (hnull hm).symm
  | some name =>
    show (((remaining s.slots p).add name slot).find? name).getD .null = slot
    rw [Slots.find?_add, if_pos rfl]
    rfl

/-- A step that is done leaves the slots of its plan. -/
theorem slots_of_isDone {p : Plan} (hp : x.plan s.slots = .ok p) (hm : p.makes = none)
    (hdone : s.isDone x = true) : (s.step x).2.slots = remaining s.slots p := by
  obtain ⟨p', hp', -, hcases⟩ := proceeds_cases (undisturbed_of_isDone hdone).1
  cases hp.symm.trans hp'
  rcases hcases with ⟨value, slot, w', -, -, hstep⟩ | ⟨failure, w', -, -, hstep⟩
  · rw [hstep, hm]
    rfl
  · rw [hstep]

theorem entry_of_isDone (hdone : s.isDone x = true) : s.entry x = x.handed s (s.made x) := by
  unfold isDone at hdone
  unfold entry
  cases ho : (s.step x).1.outcome with
  | done value => rfl
  | _ => rw [ho] at hdone; cases hdone

end State

/-! ## Slots come and go -/

namespace Slots

def Named (slots : Slots) : Prop := (slots.entries.map Prod.fst).Nodup

/-- What is in a slot is found under its name. -/
theorem Named.find?_of_mem (h : slots.Named) {e : String × Slot}
    (he : e ∈ slots.entries) : slots.find? e.1 = some e.2 := by
  obtain ⟨before, rest, hsplit⟩ := List.append_of_mem he
  rw [Named, hsplit, List.map_append, List.nodup_append] at h
  refine List.lookup_eq_some_iff.mpr ⟨before, rest, hsplit, fun d hd => ?_⟩
  rw [bne_iff_ne]
  intro heq
  exact h.2.2 d.1 (List.mem_map_of_mem hd) e.1 List.mem_cons_self heq.symm

/-- The number of slots in which something is found. -/
def counted (slots : Slots) (f : Slot → Option Id) (z : Id) : Nat :=
  slots.entries.countP fun e => decide (f e.2 = some z)

theorem counted_add (f : Slot → Option Id) (name : String) (slot : Slot) (z : Id) :
    ((slots.add name slot).counted f z : Int) = slots.counted f z + credit (f slot) 1 z := by
  show (((name, slot) :: slots.entries).countP _ : Int) = _
  rw [List.countP_cons, credit]
  by_cases h : f slot = some z
  · simp [h, counted]
  · simp [h, counted]

theorem find?_eq_none_iff {name : String} :
    slots.find? name = none ↔ name ∉ slots.entries.map Prod.fst := by
  rw [find?, List.lookup_eq_none_iff]
  simp only [List.mem_map, not_exists, not_and, bne_iff_ne, ne_eq]
  exact ⟨fun h e he hn => h e he hn.symm, fun h e he hn => h e he hn.symm⟩

/-- Names are not taken twice, so one slot goes at most. -/
theorem counted_without (hnamed : slots.Named) (f : Slot → Option Id) (name : String) (z : Id) :
    ((slots.without name).counted f z : Int) =
      slots.counted f z - credit ((slots.find? name).bind f) 1 z := by
  obtain ⟨entries⟩ := slots
  show ((entries.filter fun e => e.1 != name).countP _ : Int) =
    entries.countP _ - credit ((entries.lookup name).bind f) 1 z
  change (entries.map Prod.fst).Nodup at hnamed
  induction entries with
  | nil => rfl
  | cons e rest ih =>
    rw [List.map_cons, List.nodup_cons] at hnamed
    obtain ⟨hnew, hrest⟩ := hnamed
    rw [List.filter_cons, List.lookup_cons, List.countP_cons]
    by_cases hname : e.1 = name
    · have hall : (rest.filter fun e => e.1 != name) = rest := by
        apply List.filter_eq_self.mpr
        intro d hd
        rw [bne_iff_ne, ← hname]
        rintro heq
        exact hnew (heq ▸ List.mem_map_of_mem hd)
      rw [hall, hname]
      simp only [bne_self_eq_false, Bool.false_eq_true, if_false, beq_self_eq_true,
        Option.bind_some, decide_eq_true_eq, credit]
      split <;> simp
    · have hne : (name == e.1) = false := beq_eq_false_iff_ne.mpr (Ne.symm hname)
      rw [if_pos (bne_iff_ne.mpr hname), List.countP_cons, hne]
      have := ih hrest
      push_cast
      omega

theorem counted_remaining (hnamed : slots.Named) (f : Slot → Option Id) (p : Plan) (z : Id) :
    ((State.remaining slots p).counted f z : Int) =
      slots.counted f z - credit ((p.consumes.bind slots.find?).bind f) 1 z := by
  unfold State.remaining
  cases p.consumes with
  | none => exact (sub_zero _).symm
  | some name => exact counted_without hnamed f name z

theorem held_add (name : String) (slot : Slot) (z : Id) :
    ((slots.add name slot).held z : Int) = slots.held z + slot.holds z :=
  counted_add Slot.object? name slot z

theorem held_remaining (hnamed : slots.Named) (p : Plan) (z : Id) :
    ((State.remaining slots p).held z : Int) = slots.held z - p.uses slots z :=
  counted_remaining hnamed Slot.object? p z

theorem Named.without (hnamed : slots.Named) (name : String) : (slots.without name).Named :=
  hnamed.sublist (List.filter_sublist.map _)

theorem Named.remaining (hnamed : slots.Named) (p : Plan) : (State.remaining slots p).Named := by
  unfold State.remaining
  cases p.consumes with
  | none => exact hnamed
  | some name => exact hnamed.without name

theorem Named.add (hnamed : slots.Named) {name : String} (hfree : slots.find? name = none)
    (slot : Slot) : (slots.add name slot).Named :=
  List.nodup_cons.mpr ⟨find?_eq_none_iff.mp hfree, hnamed⟩

theorem Fit.mono {st st' : Store} (h : slots.Fit st) (hc : st.Continues st') : slots.Fit st' :=
  fun e he => (h e he).mono hc

theorem Fit.remaining {st : Store} (h : slots.Fit st) (p : Plan) :
    (State.remaining slots p).Fit st := by
  unfold State.remaining
  cases p.consumes with
  | none => exact h
  | some name => exact fun e he => h e (List.mem_of_mem_filter he)

theorem Fit.add {st : Store} (h : slots.Fit st) (name : String) {slot : Slot}
    (hslot : slot.Fits st) : (slots.add name slot).Fit st := by
  rintro e (_ | ⟨_, he⟩)
  · exact hslot
  · exact h e he

end Slots

/-! ## Steps in balance -/

theorem handed_begun (x : Step) (made : Slot) :
    x.handed ⟨s.begun, s.slots⟩ made = x.handed s made := by
  cases x with
  | create c name => cases c <;> rfl
  | shared step =>
    cases step with
    | target step source => cases step <;> rfl
    | _ => rfl
  | struct step => cases step <;> rfl
  | _ => rfl

theorem Step.balances (h : x.plan slots = .ok p) (hs : w.store.Sound) (hfit : slots.Fit w.store) :
    p.Balances slots w fun made => x.handed ⟨w, slots⟩ made := by
  cases x with
  | create c name => exact Creation.balances h hs
  | handle step => exact HandleStep.balances h hs hfit
  | shared step => exact SharedStep.balances h hs hfit
  | owned step => exact OwnedStep.balances h hs hfit
  | struct step => exact StructStep.balances h hs
  | device step source => exact DeviceStep.balances h hs
  | process step =>
    cases h
    exact balances_of_still (c := none) hs
      (step.respects_act World.Quiet.still still_of_store_eq) rfl

/-! ## The invariant -/

/-- The references that are owned outside are those of slots and those in the ledger. -/
structure Balanced (s : State) (out : Ledger) : Prop where
  sound : s.world.store.Sound
  named : s.slots.Named
  fit : s.slots.Fit s.world.store
  outside : ∀ z, s.world.store.Accountable z → s.world.store.outside z = s.slots.held z + out z
  entered : ∀ z, out z ≠ 0 → s.world.store.HasRole z .sharedStructure

/-- A step moves the references that its slots and the ledger gain. -/
structure Moved (s : State) (x : Step) (δ : Ledger) : Prop where
  turns : s.begun.Turns (s.step x).2.world δ
  named : (s.step x).2.slots.Named
  fit : (s.step x).2.slots.Fit (s.step x).2.world.store
  gained : ∀ z, ((s.step x).2.slots.held z : Int) + s.entry x z = s.slots.held z + δ z
  entered : ∀ z, s.entry x z ≠ 0 → (s.step x).2.world.store.HasRole z .sharedStructure

theorem Balanced.moved (h : Balanced s out) (hx : s.Undisturbed x) : ∃ δ, Moved s x δ := by
  obtain ⟨hproceeds, hundisturbed⟩ := hx
  obtain ⟨p, hp, hfree, hcases⟩ := State.proceeds_cases hproceeds
  have hbalances := Step.balances (w := s.begun) hp h.sound h.fit
  rcases hcases with ⟨value, slot, w', hact, houtcome, hstep⟩ | ⟨failure, w', hact, houtcome, hstep⟩
  · obtain ⟨hturns, hfits, hnull, hroles⟩ := Act.ends_of_done hbalances hact
    have hentry : s.entry x = x.handed ⟨s.begun, s.slots⟩ slot := by
      rw [State.entry, houtcome, State.made_eq hp hstep hnull, handed_begun]
    have hnamed := h.named.remaining p
    have hfit := (h.fit.mono hturns.continues).remaining p
    refine ⟨slot.holds + s.entry x - p.uses s.slots, ?_, ?_, ?_, ?_, ?_⟩
    · rw [hstep, hentry]
      exact hturns
    · rw [hstep]
      cases hm : p.makes with
      | none => exact hnamed
      | some name =>
        rw [State.nameIsFree, hm, Option.all_some, Option.isNone_iff_eq_none] at hfree
        exact hnamed.add hfree slot
    · rw [hstep]
      cases hm : p.makes with
      | none => exact hfit
      | some name => exact hfit.add name hfits
    · intro z
      have hremaining := Slots.held_remaining h.named p z
      simp only [Pi.add_apply, Pi.sub_apply, hstep]
      cases hm : p.makes with
      | none =>
        have hslot : slot.holds z = 0 := congrFun (congrArg Slot.holds (hnull hm)) z
        rw [hslot]
        show ((State.remaining s.slots p).held z : Int) + _ = _
        omega
      | some name =>
        have hadd : (((State.remaining s.slots p).add name slot).held z : Int) = _ :=
          Slots.held_add name slot z
        show (((State.remaining s.slots p).add name slot).held z : Int) + _ = _
        omega
    · rw [hstep, hentry]
      exact hroles
  · have hturns : s.begun.Turns w' (-p.uses s.slots) := by
      rcases Act.ends_of_unwound hbalances hact with hd | hturns
      · exact absurd (by rw [hstep]; exact hd) (hundisturbed failure houtcome)
      · exact hturns
    have hentry : s.entry x = 0 := by rw [State.entry, houtcome]
    refine ⟨-p.uses s.slots, ?_, ?_, ?_, ?_, ?_⟩
    · rw [hstep]
      exact hturns
    · rw [hstep]
      exact h.named.remaining p
    · rw [hstep]
      exact (h.fit.mono hturns.continues).remaining p
    · intro z
      rw [hstep, hentry, Pi.zero_apply, Pi.neg_apply, Slots.held_remaining h.named p z]
      omega
    · intro z hz
      rw [hentry] at hz
      exact absurd rfl hz

/-- A step keeps the balance. -/
theorem Balanced.step (h : Balanced s out) (hx : s.Undisturbed x) :
    Balanced (s.step x).2 (out + s.entry x) := by
  obtain ⟨δ, hmoved⟩ := h.moved hx
  have hturns := hmoved.turns
  refine ⟨hturns.sound, hmoved.named, hmoved.fit, ?_, ?_⟩
  · intro z hz
    have houtside := hturns.outside z hz
    have hbefore := h.outside z (hturns.continues.accountable hz)
    have hgained := hmoved.gained z
    rw [Pi.add_apply, houtside]
    change s.world.store.outside z + δ z = _
    omega
  · intro z hz
    by_cases hentry : s.entry x z = 0
    · rw [Pi.add_apply, hentry, add_zero] at hz
      exact hturns.continues.hasRole (h.entered z hz)
    · exact hmoved.entered z hentry

theorem balanced_initial (e : Environment) (c : Option Settings) :
    Balanced (.initial e c) 0 where
  sound := Store.sound_empty
  named := List.nodup_nil
  fit := nofun
  outside _ _ := rfl
  entered _ hz := absurd rfl hz

/-- Every reachable state is in balance. -/
theorem Reachable.balanced (h : Reachable State.Undisturbed s out) : Balanced s out := by
  induction h with
  | initial e c => exact balanced_initial e c
  | step x _ hx ih => exact ih.step hx

end ObjectBoundary.Session
