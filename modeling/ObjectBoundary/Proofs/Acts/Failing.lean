import ObjectBoundary.Proofs.Acts.Unwinding

/-!
# The first check that fails

The failure that unwinds is that of the first check that fails. On its way out of where the check
stands it meets destructors, which run, and perhaps the end of a function member, which it does not
get out of. This alone decides what becomes of the act.

* `Act.Breaks`: where the first check fails in an act, and the destructors on the way out.
* `Breaks.apply`: what becomes of an act in which a check fails.
* `Composed.locates`: every check that fails has a place.
-/

namespace ObjectBoundary

variable {α β : Type}

/-! ## Places -/

/-- Where a check fails. -/
inductive Place where
  /-- In no function member. -/
  | outside
  /-- In a function member, or in whatever else does not let failures out. -/
  | inside

/-- The outcome of an act that a failure has unwound as far as it gets. -/
def Place.leave : Place → Outcome α → Outcome α
  | outside, o => o
  | inside, o => o.contained

namespace Act

/-- A check is the first one that fails in an act, and it unwinds: where it fails, its failure, the
world with its report, and the destructors on the way out, as far as the failure gets and the
innermost one first. -/
inductive Breaks : {α : Type} → Act α → World → Place → Failure → World → List Destructor → Prop
  | check {w w' : World} {e : Failure} : check e .normal w = (.unwound e, w') →
    Breaks (check e) w .outside e w' []
  | left {α β : Type} {x : Act α} {f : α → Act β} {w w' : World} {q : Place} {e : Failure}
    {ds : List Destructor} : Breaks x w q e w' ds → Breaks (x >>= f) w q e w' ds
  /-- No check fails before. -/
  | right {α β : Type} {x : Act α} {f : α → Act β} {a : α} {w w₁ w' : World} {q : Place}
    {e : Failure} {ds : List Destructor} : x .normal w = (.done a, w₁) →
    w₁.failures = w.failures → Breaks (f a) w₁ q e w' ds → Breaks (x >>= f) w q e w' ds
  | contained {α : Type} {x : Act α} {w w' : World} {q : Place} {e : Failure}
    {ds : List Destructor} : Breaks x w q e w' ds → Breaks (contained x) w .inside e w' ds
  | unwinding {α : Type} {x : Act α} {w w' : World} {e : Failure} {ds : List Destructor}
    (d : Destructor) : Breaks x w .outside e w' ds →
    Breaks (onUnwind x d.act) w .outside e w' (ds ++ [d])
  /-- The failure has met the end of a function member before. -/
  | ending {α : Type} {x : Act α} {w w' : World} {e : Failure} {ds : List Destructor}
    (d : Destructor) : Breaks x w .inside e w' ds → Breaks (onUnwind x d.act) w .inside e w' ds

namespace Breaks

variable {x : Act α} {w w' : World} {q : Place} {e : Failure} {ds : List Destructor}

/-- No other check has failed by then. -/
theorem failures (h : Breaks x w q e w' ds) : w'.failures = w.failures ++ [.failed e] := by
  induction h with
  | @check w w' e h =>
    obtain ⟨w₁, -, hfailures, happly⟩ := check_apply e .normal w
    rw [happly] at h
    split at h <;> cases h
    exact hfailures
  | left _ ih => exact ih
  | right _ hsame _ ih => exact ih.trans (by rw [hsame])
  | contained _ ih => exact ih
  | unwinding _ _ ih => exact ih
  | ending _ _ ih => exact ih

theorem isFatal (h : Breaks x w q e w' ds) : w'.IsFatal := by
  induction h with
  | check h => exact ends_of_unwound ends_check_fatal h
  | left _ ih => exact ih
  | right _ _ _ ih => exact ih
  | contained _ ih => exact ih
  | unwinding _ _ ih => exact ih
  | ending _ _ ih => exact ih

/-- Whatever fails in the destructors on the way out, the failure is still the first one. -/
theorem apply (h : Breaks x w q e w' ds) :
    x .normal w = (q.leave ((Destructor.all ds .unwinding w').1.cleanedUp e),
      (Destructor.all ds .unwinding w').2) := by
  induction h with
  | check h => exact h
  | @left α β x f w w' q e ds _ ih =>
    rw [bind_apply, ih]
    cases q <;> rcases Destructor.all ds .unwinding w' with ⟨_ | _ | _ | _, w''⟩ <;> rfl
  | right hx _ _ ih =>
    rw [bind_apply, hx]
    exact ih
  | @contained α x w w' q e ds _ ih =>
    rw [contained_eq, ih]
    cases q <;> rcases Destructor.all ds .unwinding w' with ⟨_ | _ | _ | _, w''⟩ <;> rfl
  | @unwinding α x w w' e ds d _ ih =>
    -- The destructor runs where the ones before it have left off, unless one was refused.
    rw [onUnwind, ih, Destructor.all_concat, bind_apply]
    rcases Destructor.all ds .unwinding w' with ⟨_ | _ | _ | _, w''⟩
    · exact cleanUp_eq e d.act .normal w''
    all_goals rfl
  | @ending α x w w' e ds d _ ih =>
    rw [onUnwind, ih]
    rcases Destructor.all ds .unwinding w' with ⟨_ | _ | _ | _, w''⟩ <;> rfl

end Breaks

end Act

/-! ## Every check that fails has a place -/

/-- Settings in force, if there are any, make failed checks fatal. -/
def World.IsStrict (w : World) : Prop := ∀ s, w.settings = some s → s.fatalChecks = true

theorem World.IsFatal.isStrict {w : World} (h : w.IsFatal) : w.IsStrict := by
  obtain ⟨s, hs, hfatal⟩ := h
  rintro t ht
  cases hs.symm.trans ht
  exact hfatal

theorem World.Later.isStrict {w w' : World} (h : w.Later w') (hs : w'.IsStrict) : w.IsStrict :=
  fun s hw => hs s (h.settings s hw)

namespace Act

variable {x : Act α} {w : World}

/-- No check fails in an act. -/
structure Clears (x : Act α) (w : World) : Prop where
  failures : (x .normal w).2.failures = w.failures
  ne_unwound : ∀ e, (x .normal w).1 ≠ .unwound e

/-- The first check that fails in an act has a place, if a check fails. -/
def Locates (x : Act α) (w : World) : Prop :=
  (x .normal w).2.IsStrict → Clears x w ∨ ∃ q e w' ds, Breaks x w q e w' ds

theorem clears_pure (a : α) : Clears (pure a) w := ⟨rfl, nofun⟩

theorem clears_refuse (m : Misuse) : Clears (refuse m : Act α) w := ⟨rfl, nofun⟩

theorem clears_bind {f : α → Act β} (hx : Clears x w)
    (hf : ∀ a w', x .normal w = (.done a, w') → Clears (f a) w') : Clears (x >>= f) w := by
  obtain ⟨hfailures, hne⟩ := hx
  rcases hr : x .normal w with ⟨a | e | c | m, w₁⟩
  all_goals rw [hr] at hfailures hne
  · have happly : (x >>= f) .normal w = f a .normal w₁ := by rw [bind_apply, hr]
    obtain ⟨hfailures', hne'⟩ := hf a w₁ hr
    exact ⟨by rw [happly]; exact hfailures'.trans hfailures, by rw [happly]; exact hne'⟩
  · exact absurd rfl (hne e)
  · have happly : (x >>= f) .normal w = (.aborted c, w₁) := by rw [bind_apply, hr]
    exact ⟨by rw [happly]; exact hfailures, by rw [happly]; nofun⟩
  · have happly : (x >>= f) .normal w = (.refused m, w₁) := by rw [bind_apply, hr]
    exact ⟨by rw [happly]; exact hfailures, by rw [happly]; nofun⟩

theorem clears_ofOption (m : Misuse) (o : Option α) : Clears (ofOption m o) w := by
  cases o with
  | none => exact clears_refuse m
  | some a => exact clears_pure a

theorem clears_entity (y : Id) : Clears (entity y) w := by
  refine clears_bind ⟨rfl, nofun⟩ fun v w' _ => ?_
  split
  · exact clears_refuse _
  · split
    · exact clears_pure _
    · exact clears_refuse _

theorem clears_settings : Clears settings w := by
  obtain ⟨w', happly, hconsults⟩ := settings_apply .normal w
  exact ⟨by rw [happly]; exact hconsults.failures, by rw [happly]; nofun⟩

theorem clears_emit {e : Event} (h : e.isFailure = false) : Clears (emit e) w :=
  ⟨w.failures_emit h, nofun⟩

theorem clears_raise (y : Id) : Clears (raise y) w := by
  refine clears_bind (clears_entity y) fun e _ _ => ?_
  refine clears_bind (clears_ofOption _ _) fun c _ _ => ?_
  refine clears_bind ⟨rfl, nofun⟩ fun _ _ _ => clears_bind (clears_emit rfl) fun _ _ _ => ?_
  split
  · exact ⟨rfl, nofun⟩
  · exact clears_pure _

theorem clears_install (s : Settings) : Clears (install s) w := by
  refine clears_bind ⟨rfl, nofun⟩ fun v _ _ => ?_
  split
  · exact clears_pure _
  · refine clears_bind ⟨rfl, nofun⟩ fun _ _ _ => clears_bind (clears_emit rfl) fun _ _ _ => ?_
    exact clears_pure _

theorem clears_change (y : Id) (f : Structure → Structure) :
    Clears (entity y >>= fun e => ofOption .wrongKind e.struct? >>= fun t =>
      put y (e.withStruct (f t))) w :=
  clears_bind (clears_entity y) fun _ _ _ =>
    clears_bind (clears_ofOption _ _) fun _ _ _ => ⟨rfl, nofun⟩

theorem Clears.locates (h : Clears x w) : Locates x w := fun _ => Or.inl h

/-- A check that fails does so where it stands. -/
theorem locates_check (failure : Failure) : Locates (check failure) w := by
  intro hstrict
  let w₁ : World := { w with log := w.log ++ [.failed failure] }
  obtain ⟨w', happly, hconsults⟩ := settings_apply .normal w₁
  have hcheck : check failure .normal w =
      (if w₁.inForce.fatalChecks then unwind failure else pure ()) .normal w' := by
    show (settings >>= fun s => if s.fatalChecks then unwind failure else pure ()) .normal w₁ = _
    rw [bind_apply, happly]
  cases hfatal : w₁.inForce.fatalChecks with
  | false =>
    rw [hcheck, hfatal] at hstrict
    exact absurd (hstrict _ hconsults.settings) (by rw [hfatal]; exact Bool.false_ne_true)
  | true =>
    rw [hfatal] at hcheck
    exact Or.inr ⟨.outside, failure, w', [], .check hcheck⟩

/-- The first check that fails is one of the first act, or else one of the second. -/
theorem locates_bind {f : α → Act β} (hx : Locates x w) (hf : ∀ a w', Locates (f a) w')
    (hc : ∀ a, Composed (f a)) : Locates (x >>= f) w := by
  intro hstrict
  have honward := onward_bind (x := x) (fun a => (hc a).onward) .normal w
  rcases hx (honward.later.isStrict hstrict) with hclears | ⟨q, e, w', ds, h⟩
  · rcases hr : x .normal w with ⟨a | e | c | m, w₁⟩
    · have happly : (x >>= f) .normal w = f a .normal w₁ := by rw [bind_apply, hr]
      rcases hf a w₁ (happly ▸ hstrict) with hclears' | ⟨q, e, w', ds, h⟩
      · refine Or.inl (clears_bind hclears fun a' w'' h => ?_)
        cases hr.symm.trans h
        exact hclears'
      · have hfailures := hclears.failures
        rw [hr] at hfailures
        exact Or.inr ⟨q, e, w', ds, .right hr hfailures h⟩
    all_goals exact Or.inl (clears_bind hclears fun _ _ h => nomatch hr.symm.trans h)
  · exact Or.inr ⟨q, e, w', ds, .left h⟩

theorem locates_contained (hx : Locates x w) : Locates (contained x) w := by
  intro hstrict
  rw [contained_eq] at hstrict
  rcases hx hstrict with ⟨hfailures, hne⟩ | ⟨q, e, w', ds, h⟩
  · exact Or.inl ⟨by rw [contained_eq]; exact hfailures, contained_ne_unwound x .normal w⟩
  · exact Or.inr ⟨.inside, e, w', ds, .contained h⟩

/-- If no check fails in an act there is nothing to clean up. -/
theorem locates_onUnwind (d : Destructor) (hx : Locates x w) : Locates (onUnwind x d.act) w := by
  intro hstrict
  rcases hx ((onward_onUnwind d.composed .normal w).later.isStrict hstrict) with
    ⟨hfailures, hne⟩ | ⟨q, e, w', ds, h⟩
  · have happly : onUnwind x d.act .normal w = x .normal w := by
      unfold onUnwind
      generalize x .normal w = r at hne
      rcases r with ⟨_ | e | _ | _, w₁⟩
      · rfl
      · exact absurd rfl (hne e)
      all_goals rfl
    exact Or.inl ⟨by rw [happly]; exact hfailures, by rw [happly]; exact hne⟩
  · cases q with
    | outside => exact Or.inr ⟨.outside, e, w', ds ++ [d], .unwinding d h⟩
    | inside => exact Or.inr ⟨.inside, e, w', ds, .ending d h⟩

theorem Composed.locates (h : Composed x) (w : World) : Locates x w := by
  induction h generalizing w with
  | pure a => exact (clears_pure a).locates
  | bind _ hf ihx ihf => exact locates_bind (ihx w) ihf hf
  | refuse m => exact (clears_refuse m).locates
  | raise x => exact (clears_raise x).locates
  | consult => exact (clears_bind clears_settings fun _ _ _ => clears_pure _).locates
  | install s => exact (clears_install s).locates
  | emit h => exact (clears_emit (Event.isComplaint_eq_false.mp h).1).locates
  | check failure => exact locates_check failure
  | change x f => exact (clears_change x f).locates
  | vacate x v hdispose ih =>
    exact locates_bind (Clears.locates ⟨rfl, nofun⟩) (fun _ => ih) fun _ => hdispose
  | contained _ ih => exact locates_contained (ih w)
  | onUnwind d _ _ ih _ => exact locates_onUnwind d (ih w)
  | _ => exact Clears.locates ⟨rfl, nofun⟩

end Act

end ObjectBoundary
