import ObjectBoundary.Proofs.Session.Planned

/-!
# What plans do to the balance

Each plan moves references between the slots, the wrappers and proxies, and the ledger. A plan
that is done moves those that the slot it uses up and the one it makes hold, and those that the
step hands over. A plan that unwinds has moved no more than what it uses up, unless the check of
the start of shutdown has failed.
-/

namespace ObjectBoundary.Session

open ObjectBoundary

/-! ## Slots that fit a store -/

/-- What a slot holds is an entity of its kind. -/
def Slot.Fits (st : Store) : Slot → Prop
  | .handle o _ => st.HasRole o .sharedObject
  | .leaked o _ => st.HasRole o .sharedObject
  | .owner o _ => st.HasRole o .ownedObject
  | .loan x => st.IsLent x
  | _ => True

theorem Slot.Fits.mono {st st' : Store} {slot : Slot} (h : slot.Fits st)
    (hc : st.Continues st') : slot.Fits st' := by
  cases slot <;> first | trivial | exact hc.hasRole h | exact hc.isLent h

/-- The references that a slot holds. -/
def Slot.holds (slot : Slot) : Ledger := credit slot.object? 1

def Slots.Fit (slots : Slots) (st : Store) : Prop := ∀ e ∈ slots.entries, e.2.Fits st

theorem Slots.Fit.find? {slots : Slots} {st : Store} (h : slots.Fit st) {name : String}
    {slot : Slot} (hf : slots.find? name = some slot) : slot.Fits st := by
  unfold Slots.find? at hf
  obtain ⟨_, _, hsplit, -⟩ := List.lookup_eq_some_iff.mp hf
  exact h (name, slot) (hsplit ▸ by simp)

theorem Slots.Fit.argument {slots : Slots} {st : Store} (h : slots.Fit st) {o : Option String}
    {slot : Slot} (ha : slots.argument o = .ok slot) : slot.Fits st := by
  cases o with
  | none =>
    cases ha
    trivial
  | some source => exact h.find? (Slots.argument_eq ha)

/-! ## Plans in balance -/

/-- The references that a plan uses up. -/
def Plan.uses (p : Plan) (slots : Slots) : Ledger := credit (slots.objectAt p.consumes) 1

/-- A plan moves the references that it should, given what is handed over. -/
def Plan.Balances (p : Plan) (slots : Slots) (w : World) (handed : Slot → Ledger) : Prop :=
  p.act.Ends w
    (fun r w' => w.Turns w' (r.2.holds + handed r.2 - p.uses slots) ∧ r.2.Fits w'.store ∧
      (p.makes = none → r.2 = .null) ∧
      ∀ z, handed r.2 z ≠ 0 → w'.store.HasRole z .sharedStructure)
    fun e w' => World.Disturbed e w' ∨ w.Turns w' (-p.uses slots)

section Balances

open Act

variable {slots : Slots} {w : World} {handed : Slot → Ledger} {c : Option String}
  {name : String}

theorem balances_answering {act : Act Value}
    (h : Ends act w
      (fun _ w' => w.Turns w' (handed .null - credit (slots.objectAt c) 1) ∧
        ∀ z, handed .null z ≠ 0 → w'.store.HasRole z .sharedStructure)
      fun e w' => World.Disturbed e w' ∨ w.Turns w' (-credit (slots.objectAt c) 1)) :
    ((Plan.answering act).consuming c).Balances slots w handed := by
  refine ends_bind h fun v w' h' => ends_pure ⟨h'.1.of_eq ?_, trivial, fun _ => rfl, h'.2⟩
  exact congrArg (· - _) (zero_add _).symm

theorem balances_making {act : Act (Value × Slot)}
    (h : Ends act w
      (fun r w' =>
        w.Turns w' (r.2.holds + handed r.2 - credit (slots.objectAt c) 1) ∧
        r.2.Fits w'.store ∧ ∀ z, handed r.2 z ≠ 0 → w'.store.HasRole z .sharedStructure)
      fun e w' => World.Disturbed e w' ∨ w.Turns w' (-credit (slots.objectAt c) 1)) :
    ((Plan.making name act).consuming c).Balances slots w handed :=
  ends_mono h (fun _ _ h => ⟨h.1, h.2.1, nofun, h.2.2⟩) fun _ _ hu => hu

/-- What leaves all references alone and answers only is in balance. -/
theorem balances_of_still {act : Act Value} (hs : w.store.Sound) (h : Respects World.Still act w)
    (hc : slots.objectAt c = none) :
    ((Plan.answering act).consuming c).Balances slots w fun _ => 0 := by
  refine balances_answering (ends_mono (ends_of_respects h) (fun _ w' h' => ?_)
    fun _ w' h' => Or.inr ?_)
  · refine ⟨(h'.turns hs).of_eq ?_, fun z hz => absurd rfl hz⟩
    rw [hc, credit_none, sub_zero]
  · apply (h'.turns hs).of_eq
    rw [hc, credit_none, neg_zero]

theorem balances_of_quiet {act : Act Value} (hs : w.store.Sound) (h : Respects World.Quiet act w) :
    (Plan.answering act).Balances slots w fun _ => 0 :=
  balances_of_still hs (still_of_quiet h) rfl

/-- The same for what makes a slot that holds no reference. -/
theorem balances_making_still {act : Act (Value × Slot)} (hs : w.store.Sound)
    (h : Respects World.Still act w) (hc : slots.objectAt c = none)
    (hslot : Ends act w (fun r w' => r.2.object? = none ∧ r.2.Fits w'.store) fun _ _ => True) :
    ((Plan.making name act).consuming c).Balances slots w fun _ => 0 := by
  refine balances_making (ends_mono (ends_and_respects hslot h) ?_ fun _ w' h' => Or.inr ?_)
  · rintro ⟨v, slot⟩ w' ⟨⟨hobject, hfits⟩, h'⟩
    refine ⟨(h'.turns hs).of_eq ?_, hfits, fun z hz => absurd rfl hz⟩
    rw [Slot.holds, hobject, hc, credit_none, add_zero, sub_zero]
  · apply (h'.2.turns hs).of_eq
    rw [hc, credit_none, neg_zero]

theorem ends_holding {slot : Id → Slot} {r : Option Id} {P : Value × Slot → World → Prop}
    {U : Failure → World → Prop} (h : ∀ v, P (v, (r.map slot).getD .null) w) :
    Ends (holding slot r) w P U := by
  cases r with
  | none => exact ends_pure (h .null)
  | some x => exact ends_bind (P := fun _ w' => w' = w) (fun _ => rfl) (by
      intro v w heq
      cases heq
      exact ends_pure (h v))

end Balances

section Answers

open Act

variable {R : World → World → Prop} [IsPreorder World R] {w : World}

theorem respects_answering {act : Act Value} (h : Respects R act w) :
    Respects R (Plan.answering act).act w := respects_map h

theorem respects_asName (r : Option Id) : Respects R (asName r) w := by
  cases r with
  | none => exact respects_pure _
  | some x => exact respects_map respects_get

theorem respects_holding (slot : Id → Slot) (r : Option Id) : Respects R (holding slot r) w := by
  cases r with
  | none => exact respects_pure _
  | some x => exact respects_map (respects_asName _)

/-- An act whose result is held. -/
theorem respects_held {α : Type} {act : Act α} {g : α → Option Id} {slot : Id → Slot}
    (h : Respects R act w) : Respects R (act >>= fun a => holding slot (g a)) w :=
  respects_bind h fun _ _ _ => respects_holding _ _

theorem respects_silently {x : Act Unit} (h : Respects R x w) : Respects R (silently x) w :=
  respects_map h

theorem respects_asFlag {x : Act Bool} (h : Respects R x w) : Respects R (asFlag x) w :=
  respects_map h

theorem respects_asTruth {x : Act Int32} (h : Respects R x w) : Respects R (asTruth x) w :=
  respects_map h

theorem respects_asNumber {x : Act Int32} (h : Respects R x w) : Respects R (asNumber x) w :=
  respects_map h

end Answers

end ObjectBoundary.Session
