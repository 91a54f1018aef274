import ObjectBoundary.Proofs.Session.Balance

/-!
# Slots that are used up

A step uses no slot up but one that it drops, converts or hands over. All other slots stay, however
the step ends.

* `UsesUp`: the steps that use a slot up, and what it may hold.
* `Step.usesUp`: there are no others.
* `State.find?_step`: a slot that is not used up stays.
-/

namespace ObjectBoundary.Session

open ObjectBoundary

variable {slots : Slots} {s : State} {p : Plan} {x : Step} {name : String}

/-- The steps that use a slot up, and what it holds. -/
inductive UsesUp (name : String) : Slot → Step → Prop
  | dropped {slot : Slot} {act : Act Unit} : HandleStep.giveUp slot = .ok act →
    UsesUp name slot (.handle (.drop name))
  | upcast {slot slot' : Slot} {target : Upcast} {made : String} :
    HandleStep.upcastSlot target slot = .ok slot' →
      UsesUp name slot (.handle (.upcast name target made))
  | leaked {o : Id} {view : SharedInterface} {made : String} :
    UsesUp name (.handle o view) (.handle (.leak name made))
  | reclaimed {o : Id} {view : SharedInterface} {made : String} :
    UsesUp name (.leaked o view) (.handle (.reclaim name made))
  | released {o : Id} {view : SharedInterface} :
    UsesUp name (.leaked o view) (.handle (.release name))
  | wrapped {o : Id} {view : SharedInterface} {c : SharedClass} {made : String} :
    UsesUp name (.handle o view) (.shared (.wrap c (some name) made))
  | givenBack {o : Id} {view : SharedInterface} {c : ProxyClass} {made : String} :
    UsesUp name (.handle o view) (.shared (.giveBack c (some name) made))
  | given {o : Id} {view : OwnedInterface} {c : OwnedClass} {made : String} :
    UsesUp name (.owner o view) (.owned (.give c (some name) made))
  | surrendered {o : Id} {view : OwnedInterface} {c : ProxyClass} {made : String} :
    UsesUp name (.owner o view) (.owned (.surrender c (some name) made))

theorem HandleStep.usesUp {x : HandleStep} (hp : x.plan slots = .ok p)
    (hc : p.consumes = some name) :
    ∃ slot, slots.find? name = some slot ∧ UsesUp name slot (.handle x) := by
  cases planned hp with
  | drop source slot act hslot hact =>
    cases hc
    exact ⟨slot, Slots.argument_eq hslot, .dropped hact⟩
  | upcast source target made slot slot' hslot hup =>
    cases hc
    exact ⟨slot, Slots.argument_eq hslot, .upcast hup⟩
  | leak source made o view ho =>
    cases hc
    exact ⟨_, Slots.argument_eq ho, .leaked⟩
  | reclaim source made o view ho =>
    cases hc
    exact ⟨_, Slots.argument_eq ho, .reclaimed⟩
  | release source o view ho =>
    cases hc
    exact ⟨_, Slots.argument_eq ho, .released⟩
  | _ => cases hc

theorem SharedStep.usesUp {x : SharedStep} (hp : x.plan slots = .ok p)
    (hc : p.consumes = some name) :
    ∃ slot, slots.find? name = some slot ∧ UsesUp name slot (.shared x) := by
  cases planned hp with
  | wrap c source made o ho =>
    cases hc
    exact ⟨_, Slots.argument_eq ho, .wrapped⟩
  | giveBack c source made o ho =>
    cases hc
    exact ⟨_, Slots.argument_eq ho, .givenBack⟩
  | _ => cases hc

theorem OwnedStep.usesUp {x : OwnedStep} (hp : x.plan slots = .ok p)
    (hc : p.consumes = some name) :
    ∃ slot, slots.find? name = some slot ∧ UsesUp name slot (.owned x) := by
  cases planned hp with
  | give c source made o ho =>
    cases hc
    exact ⟨_, Slots.argument_eq ho, .given⟩
  | surrender c source made o ho =>
    cases hc
    exact ⟨_, Slots.argument_eq ho, .surrendered⟩
  | _ => cases hc

/-- What a step uses up is dropped, converted or handed over. -/
theorem Step.usesUp (hp : x.plan slots = .ok p) (hc : p.consumes = some name) :
    ∃ slot, slots.find? name = some slot ∧ UsesUp name slot x := by
  cases x with
  | handle step => exact HandleStep.usesUp hp hc
  | shared step => exact SharedStep.usesUp hp hc
  | owned step => exact OwnedStep.usesUp hp hc
  | struct step => cases StructStep.planned hp <;> cases hc
  | device step source =>
    obtain ⟨_, -, rfl⟩ := DeviceStep.planned (x := step) hp
    cases hc
  | create c made =>
    obtain ⟨_, _, -, rfl⟩ := Creation.planned (c := c) hp
    cases hc
  | process step =>
    cases hp
    cases hc

namespace State

/-- The slots after a step: those that its plan leaves, with the one that it makes, if it was
carried out at all. -/
theorem step_slots (s : State) (x : Step) :
    (s.step x).2.slots = s.slots ∨ ∃ p, x.plan s.slots = .ok p ∧ nameIsFree s.slots p = true ∧
      ((s.step x).2.slots = remaining s.slots p ∨ ∃ name slot, p.makes = some name ∧
        (s.step x).2.slots = (remaining s.slots p).add name slot) := by
  cases hp : x.plan s.slots with
  | error misuse =>
    rw [step, hp]
    exact Or.inl rfl
  | ok p =>
    cases hfree : nameIsFree s.slots p with
    | false =>
      refine Or.inl ?_
      rw [step, hp]
      simp only [hfree, Bool.false_eq_true, if_false]
    | true =>
      rw [step_of_plan hp hfree]
      unfold carryOut
      rcases p.act .normal { s.world with log := [] } with ⟨⟨value, slot⟩ | _ | _ | _, w'⟩
      · refine Or.inr ⟨p, rfl, hfree, ?_⟩
        cases hm : p.makes with
        | none => exact Or.inl rfl
        | some name => exact Or.inr ⟨name, slot, rfl, rfl⟩
      · exact Or.inr ⟨p, rfl, hfree, Or.inl rfl⟩
      · exact Or.inr ⟨p, rfl, hfree, Or.inl rfl⟩
      · exact Or.inl rfl

/-- A slot that is not used up stays. -/
theorem find?_step {slot : Slot} (h : s.slots.find? name = some slot)
    (hx : ¬ UsesUp name slot x) : (s.step x).2.slots.find? name = some slot := by
  rcases s.step_slots x with hslots | ⟨p, hp, hfree, hslots⟩
  · rw [hslots, h]
  have hremaining : (remaining s.slots p).find? name = some slot := by
    unfold remaining
    cases hc : p.consumes with
    | none => exact h
    | some source =>
      have hne : name ≠ source := by
        rintro rfl
        obtain ⟨slot', hfind, huses⟩ := Step.usesUp hp hc
        cases h.symm.trans hfind
        exact hx huses
      rw [Option.elim_some, Slots.find?_without, if_neg hne, h]
  rcases hslots with hslots | ⟨made, new, hmakes, hslots⟩
  · rw [hslots, hremaining]
  · rw [nameIsFree, hmakes, Option.all_some] at hfree
    have hne : name ≠ made := by
      rintro rfl
      rw [hremaining] at hfree
      cases hfree
    rw [hslots, Slots.find?_add, if_neg hne, hremaining]

end State

end ObjectBoundary.Session
