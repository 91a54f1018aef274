import ObjectBoundary.Proofs.Session.Bypassing
import ObjectBoundary.Proofs.Session.Degradation
import ObjectBoundary.Proofs.Session.History

/-!
# Counters that do as integers do

A counter is a word and wraps at both ends. Its *tally* is the integer that it stands for: what was
added less what was taken, below zero as well as above. As long as fewer calls were made than half
the range of a word, the counter tells whether its tally is below zero, zero or one, and it answers
accordingly, whatever else happens in between and however the calls end.

* `Count.Holds`: a word that is what is left of an integer.
* `State.ticks`, `State.tally`: what one step and several steps add to a counter.
* `State.Simulates`: a counter that answers as an integer.
* `State.underflows`: a counter is taken from at zero.
* `counters_simulate`: a new counter simulates its tally, and stays below zero once it underflowed.
-/

namespace ObjectBoundary

/-! ## Words and integers -/

namespace Count

variable {c : Count} {z : Int}

/-- A word that is what is left of an integer. -/
def Holds (c : Count) (z : Int) : Prop := (c.toNat : Int) = z % 2 ^ 64

theorem holds_zero : zero.Holds 0 := rfl

theorem Holds.succ (h : c.Holds z) : c.succ.Holds (z + 1) := by
  unfold Holds at h ⊢
  rw [toNat_succ, UInt64.size]
  omega

theorem Holds.pred (h : c.Holds z) : c.pred.Holds (z - 1) := by
  unfold Holds at h ⊢
  rw [toNat_pred, UInt64.size]
  omega

/-! What a word tells of an integer within half its range. -/

theorem Holds.isFull (h : c.Holds z) (hz : z.natAbs < 2 ^ 63) : c.isFull = decide (z < 0) := by
  have hlimit : limit.toNat = 2 ^ 63 - 1 := rfl
  unfold Holds at h
  rw [Bool.eq_iff_iff, isFull_iff, hlimit, decide_eq_true_eq]
  omega

theorem Holds.isZero (h : c.Holds z) (hz : z.natAbs < 2 ^ 63) : c.isZero = decide (z = 0) := by
  unfold Holds at h
  rw [Bool.eq_iff_iff, isZero_iff, decide_eq_true_eq]
  omega

theorem Holds.isOne (h : c.Holds z) (hz : z.natAbs < 2 ^ 63) : c.isOne = decide (z = 1) := by
  unfold Holds at h
  rw [Bool.eq_iff_iff, isOne_iff, decide_eq_true_eq]
  omega

end Count

/-! ## A counter in a world -/

/-- A counter that exists, with its count. -/
def World.Counts (k : Id) (c : Count) (w : World) : Prop :=
  ∃ name, w.store.get? k = some ⟨name, .counter c, true⟩

namespace Act

variable {w : World} {k : Id} {c : Count} {phase : Phase}

theorem counter_apply (h : w.Counts k c) : counter k phase w = (.done c, w) := by
  obtain ⟨name, hn⟩ := h
  simp only [counter, bind_apply, entity_apply hn rfl]
  rfl

theorem discard_counter_apply (h : w.Counts k c) : discard (counter k) phase w = (.done (), w) := by
  show (counter k >>= fun _ => pure ()) phase w = _
  rw [bind_apply, counter_apply h]
  rfl

/-- A counter is no checker. -/
theorem checker_apply (h : w.Counts k c) : checker k phase w = (.refused .wrongKind, w) := by
  obtain ⟨name, hn⟩ := h
  simp only [checker, bind_apply, entity_apply hn rfl]
  rfl

theorem countAsk_apply (h : w.Counts k c) (q : Question) :
    countAsk q k phase w = (.done (c.answer q), w) := by
  simp only [countAsk, bind_apply, counter_apply h]
  rfl

/-- A counter after a change that is noted. -/
theorem counts_put (h : w.Counts k c) (c' : Count) (e : Event) :
    World.Counts k c' { w with
      store := w.store.modify k fun n => { n with entity := .counter c' }
      log := w.log ++ [e] } := by
  obtain ⟨name, hn⟩ := h
  refine ⟨name, ?_⟩
  show (w.store.modify k _).get? k = _
  rw [Store.get?_modify, if_pos rfl, hn]
  rfl

/-- Whether the process ends is found out when the count has risen. -/
theorem countUp_apply (h : w.Counts k c) : ∃ w', w'.Counts k c.succ ∧
    countUp k phase w = (if c.isFull then .aborted none else .done (), w') := by
  let w₁ : World := { w with
    store := w.store.modify k fun n => { n with entity := .counter c.succ }
    log := w.log ++ [.raised k] }
  have hcounts : w₁.Counts k c.succ := counts_put h c.succ (.raised k)
  obtain ⟨name, hn⟩ := h
  have hraise :
      countUp k phase w = (if c.isFull then abort else pure () : Act Unit) phase w₁ := by
    simp only [countUp, bind_apply, discard_counter_apply ⟨name, hn⟩, raise, entity_apply hn rfl]
    rfl
  refine ⟨w₁, hcounts, ?_⟩
  rw [hraise]
  cases c.isFull <;> rfl

/-- Whether there was nothing to take is found out when the count has fallen. -/
theorem countDown_apply (h : w.Counts k c) : ∃ w', w'.Counts k c.pred ∧
    w'.failures = w.failures ++ (if c.isZero then [.failed .countUnderflow] else []) ∧
    countDown k .normal w =
      (if c.isZero && w.inForce.fatalChecks then .unwound .countUnderflow else .done c.isOne,
        w') := by
  let w₁ : World := { w with
    store := w.store.modify k fun n => { n with entity := .counter c.pred }
    log := w.log ++ [.lowered k] }
  have hcounts : w₁.Counts k c.pred := counts_put h c.pred (.lowered k)
  have hfailures : w₁.failures = w.failures := w.failures_emit rfl
  obtain ⟨name, hn⟩ := h
  have hlower : countDown k .normal w =
      (require (!c.isZero) .countUnderflow >>= fun _ => pure c.isOne) .normal w₁ := by
    simp only [countDown, bind_apply, discard_counter_apply ⟨name, hn⟩, lower,
      entity_apply hn rfl]
    rfl
  rw [hlower]
  cases hzero : c.isZero with
  | false =>
    refine ⟨w₁, hcounts, ?_, rfl⟩
    rw [hfailures]
    exact (List.append_nil _).symm
  | true =>
    obtain ⟨w', hquiet, hfailed, hcheck⟩ := check_apply .countUnderflow .normal w₁
    refine ⟨w', ?_, ?_, ?_⟩
    · rw [World.Counts, hquiet.store]
      exact hcounts
    · rw [hfailed, hfailures]
      rfl
    · show (check .countUnderflow >>= fun _ => pure c.isOne) .normal w₁ = _
      rw [bind_apply, hcheck, show w₁.inForce = w.inForce from rfl]
      cases w.inForce.fatalChecks <;> rfl

end Act

namespace Session

open Act

variable {s : State} {x : Step} {xs : List Step} {k : Id} {c : Count} {z : Int}
  {source name : String}

/-! ## What steps add to a counter -/

theorem Step.plan_device (step : DeviceStep) (h : s.slots.deviceAt source = some k) :
    (Step.device step source).plan s.slots = .ok (.answering (step.act k)) := by
  show (s.slots.device source >>= fun y => Except.ok (Plan.answering (step.act y))) = _
  rw [Slots.device_of_deviceAt h]
  rfl

namespace State

/-- What a call of a counter adds to it. -/
def ticks (s : State) (k : Id) : Step → Int
  | .device .countUp source => if s.slots.deviceAt source = some k then 1 else 0
  | .device .countDown source => if s.slots.deviceAt source = some k then -1 else 0
  | _ => 0

/-- What several steps, one after the other, add to a counter. -/
def tally (s : State) (k : Id) : List Step → Int
  | [] => 0
  | x :: xs => s.ticks k x + (s.step x).2.tally k xs

/-- How many of several steps, one after the other, add to a counter or take from it. -/
def strokes (s : State) (k : Id) : List Step → Nat
  | [] => 0
  | x :: xs => (s.ticks k x).natAbs + (s.step x).2.strokes k xs

theorem natAbs_tally_le (s : State) (k : Id) (xs : List Step) :
    (s.tally k xs).natAbs ≤ s.strokes k xs := by
  induction xs generalizing s with
  | nil => exact Nat.le_refl 0
  | cons x xs ih => exact Nat.le_trans (Int.natAbs_add_le _ _) (Nat.add_le_add_left (ih _) _)

/-! ## Counters that hold an integer -/

/-- A counter that exists and holds an integer. -/
def Holds (s : State) (k : Id) (z : Int) : Prop := ∃ c, s.world.Counts k c ∧ c.Holds z

theorem step_countUp (h : s.world.Counts k c) (hk : s.slots.deviceAt source = some k) :
    (s.step (.device .countUp source)).2.world.Counts k c.succ ∧
      (s.step (.device .countUp source)).1.outcome =
        if c.isFull then .aborted none else .done .null := by
  obtain ⟨w', hcounts, happly⟩ : ∃ w' : World, w'.Counts k c.succ ∧ countUp k .normal s.begun =
      (if c.isFull then .aborted none else .done (), w') := countUp_apply h
  have hact : DeviceStep.countUp.act k .normal s.begun =
      (if c.isFull then .aborted none else .done .null, w') := by
    show silently (countUp k) .normal s.begun = _
    rw [silently, bind_apply, happly]
    cases c.isFull <;> rfl
  obtain ⟨houtcome, hworld⟩ := step_of_answering (Step.plan_device _ hk) hact fun m => by
    cases c.isFull <;> nofun
  exact ⟨hworld ▸ hcounts, houtcome⟩

theorem step_countDown (h : s.world.Counts k c) (hk : s.slots.deviceAt source = some k) :
    (s.step (.device .countDown source)).2.world.Counts k c.pred ∧
      (s.step (.device .countDown source)).1.outcome =
        (if c.isZero && s.world.inForce.fatalChecks then .unwound .countUnderflow
          else .done (.flag c.isOne)) ∧
      (s.step (.device .countDown source)).1.lines.filter isErrorLine =
        if c.isZero then ["ERROR reference count underflow"] else [] := by
  obtain ⟨w', hcounts, hfailures, happly⟩ := countDown_apply (w := s.begun) h
  have hact : DeviceStep.countDown.act k .normal s.begun =
      (if c.isZero && s.world.inForce.fatalChecks then .unwound .countUnderflow
        else .done (.flag c.isOne), w') := by
    show asFlag (countDown k) .normal s.begun = _
    rw [asFlag, bind_apply, happly, show s.begun.inForce = s.world.inForce from rfl]
    cases c.isZero && s.world.inForce.fatalChecks <;> rfl
  have hnot (m : Misuse) : (if c.isZero && s.world.inForce.fatalChecks then
      Outcome.unwound .countUnderflow else .done (Value.flag c.isOne)) ≠ .refused m := by
    split <;> nofun
  obtain ⟨houtcome, hworld⟩ := step_of_answering (Step.plan_device _ hk) hact hnot
  refine ⟨hworld ▸ hcounts, houtcome, ?_⟩
  have haccepts : s.accepts (.device .countDown source) = true := by
    rw [accepts, houtcome]
    split <;> first | rfl | exact absurd ‹_› (hnot _)
  rw [filter_step haccepts, hworld, failed_eq, hfailures]
  cases c.isZero <;> rfl

theorem step_countAsk (h : s.world.Counts k c) (hk : s.slots.deviceAt source = some k)
    (q : Question) :
    (s.step (.device (.countAsk q) source)).1.outcome = .done (.flag (c.answer q)) := by
  have hact : (DeviceStep.countAsk q).act k .normal s.begun =
      (.done (.flag (c.answer q)), s.begun) := by
    show asFlag (countAsk q k) .normal s.begun = _
    rw [asFlag, bind_apply, countAsk_apply (w := s.begun) h]
    rfl
  exact (step_of_answering (Step.plan_device _ hk) hact fun m => by nofun).1

theorem counts_step_of_quiet {step : DeviceStep} (h : s.world.Counts k c)
    (hk : s.slots.deviceAt source = some k) (hlook : Respects World.Quiet (step.act k) s.begun) :
    (s.step (.device step source)).2.world.Counts k c := by
  obtain ⟨name, hn⟩ := h
  refine ⟨name, ?_⟩
  rcases s.step_world (.device step source) with (hworld | hworld) | ⟨p, hp, -, hworld⟩
  · rw [hworld, hn]
  · rw [hworld]
    exact hn
  · cases (Step.plan_device step hk).symm.trans hp
    have hquiet : Respects World.Quiet (Plan.answering (step.act k)).act s.begun :=
      respects_map hlook
    rw [hworld, (hquiet .normal).store]
    exact hn

/-- However a step ends, what it adds to a counter is held by it afterwards. -/
theorem Holds.step (h : s.Holds k z) (x : Step) : (s.step x).2.Holds k (z + s.ticks k x) := by
  obtain ⟨c, hcounts, hc⟩ := h
  have hstays (hx : ∀ step source, x = .device step source → s.slots.deviceAt source ≠ some k)
      (hticks : s.ticks k x = 0) : (s.step x).2.Holds k (z + s.ticks k x) := by
    obtain ⟨name, hn⟩ := hcounts
    rw [hticks, add_zero]
    exact ⟨c, ⟨name, get?_device hn rfl hx⟩, hc⟩
  have hlooks {step : DeviceStep} {source : String} (hk : s.slots.deviceAt source = some k)
      (hlook : Respects World.Quiet (step.act k) s.begun) :
      (s.step (.device step source)).2.Holds k (z + 0) :=
    ⟨c, counts_step_of_quiet hcounts hk hlook, (add_zero z).symm ▸ hc⟩
  cases x with
  | device step source =>
    by_cases hk : s.slots.deviceAt source = some k
    · cases step with
      | countUp =>
        rw [ticks, if_pos hk]
        exact ⟨_, (step_countUp hcounts hk).1, hc.succ⟩
      | countDown =>
        rw [ticks, if_pos hk]
        exact ⟨_, (step_countDown hcounts hk).1, hc.pred⟩
      | countAsk q => exact hlooks hk (respects_asFlag (respects_countAsk q k))
      | isShutdown => exact hlooks hk (respects_asFlag (respects_checker k))
      | require =>
        refine hlooks hk (respects_silently ?_)
        exact respects_bind (respects_checker k) fun _ _ _ => respects_require _ _
      | signal =>
        refine hlooks hk (respects_silently fun phase => ?_)
        show World.Quiet _ (checkerSignal k phase s.begun).2
        rw [checkerSignal, bind_apply, checker_apply (w := s.begun) hcounts]
        exact refl_of World.Quiet _
    · refine hstays (fun step' source' hx => ?_) ?_
      · cases hx
        exact hk
      · cases step <;> simp only [ticks, if_neg hk]
  | _ => exact hstays (fun _ _ hx => Step.noConfusion hx) rfl

theorem Holds.after (h : s.Holds k z) (xs : List Step) :
    (s.after xs).Holds k (z + s.tally k xs) := by
  induction xs generalizing s z with
  | nil => exact (add_zero z).symm ▸ h
  | cons x xs ih =>
    rw [tally, ← add_assoc]
    exact ih (h.step x)

theorem deviceAt_after (h : s.slots.deviceAt source = some k) (xs : List Step) :
    (s.after xs).slots.deviceAt source = some k := by
  induction xs generalizing s with
  | nil => exact h
  | cons x xs ih => exact ih (deviceAt_step h)

/-- A new counter holds zero, in a slot of its own. -/
theorem holds_created (h : s.isDone (.create .counter name) = true) :
    (s.step (.create .counter name)).2.Holds s.world.store.size 0 ∧
      (s.step (.create .counter name)).2.slots.deviceAt name = some s.world.store.size := by
  obtain ⟨p, hp, hfree, -⟩ := proceeds_cases (undisturbed_of_isDone h).1
  cases hp
  have hact : ((do
      let y ← create name (.counter .zero)
      pure (.null, .device y)) : Act (Value × Slot)) .normal s.begun =
        (.done (.null, .device s.world.store.size),
          { s.begun with store := s.world.store.push ⟨name, .counter .zero, true⟩ }) := rfl
  rw [step_of_done rfl hfree hact]
  refine ⟨⟨.zero, ⟨name, ?_⟩, Count.holds_zero⟩, ?_⟩
  · show (s.world.store.push _).get? _ = _
    rw [Store.get?_push, if_pos rfl]
  · rw [Slots.deviceAt_eq_some]
    show (Slots.add _ name _).find? name = _
    rw [Slots.find?_add, if_pos rfl]

/-! ## Counters that answer as an integer -/

/-- A counter that answers as an integer without bounds. It ends the process when it is added to
below zero, reports when it is taken from at zero, and unwinds then if failed checks are fatal; it
tells that the last was taken when it was at one. -/
structure Simulates (s : State) (source : String) (k : Id) (z : Int) : Prop where
  holds : s.Holds k z
  added : (s.step (.device .countUp source)).2.Holds k (z + 1)
  countUp : (s.step (.device .countUp source)).1.outcome =
    if z < 0 then .aborted none else .done .null
  taken : (s.step (.device .countDown source)).2.Holds k (z - 1)
  reported : (s.step (.device .countDown source)).1.lines.filter isErrorLine =
    if z = 0 then ["ERROR reference count underflow"] else []
  countDown : (s.step (.device .countDown source)).1.outcome =
    if z = 0 ∧ s.world.inForce.fatalChecks = true then .unwound .countUnderflow
    else .done (.flag (decide (z = 1)))
  unique : (s.step (.device (.countAsk .unique) source)).1.outcome =
    .done (.flag (decide (z = 1)))
  referenced : (s.step (.device (.countAsk .referenced) source)).1.outcome =
    .done (.flag (decide (z ≠ 0)))

theorem Holds.simulates (h : s.Holds k z) (hk : s.slots.deviceAt source = some k)
    (hz : z.natAbs < 2 ^ 63) : s.Simulates source k z := by
  obtain ⟨c, hcounts, hc⟩ := h
  obtain ⟨hup, hadded⟩ := step_countUp hcounts hk
  obtain ⟨hdown, htold, hreported⟩ := step_countDown hcounts hk
  have hzero := hc.isZero hz
  have hone := hc.isOne hz
  refine ⟨⟨c, hcounts, hc⟩, ⟨_, hup, hc.succ⟩, ?_, ⟨_, hdown, hc.pred⟩, ?_, ?_, ?_, ?_⟩
  · rw [hadded, hc.isFull hz]
    simp only [decide_eq_true_eq]
  · rw [hreported, hzero]
    simp only [decide_eq_true_eq]
  · rw [htold, hzero, hone]
    simp only [Bool.and_eq_true, decide_eq_true_eq]
  · rw [step_countAsk hcounts hk, Count.answer, hone]
  · rw [step_countAsk hcounts hk, Count.answer, hzero, decide_not]

/-! ## Underflow -/

/-- A counter that holds an integer is taken from at zero in one of several steps. -/
def underflows (s : State) (k : Id) (z : Int) : List Step → Prop
  | [] => False
  | x :: xs => z = 0 ∧ s.ticks k x = -1 ∨ (s.step x).2.underflows k (z + s.ticks k x) xs

/-- The process goes on after a step. -/
def GoesOn (s : State) (x : Step) : Prop := (s.step x).1.goesOn = true

theorem ticks_cases (s : State) (k : Id) (x : Step) : s.ticks k x = 0 ∨ s.ticks k x = -1 ∨
    s.ticks k x = 1 ∧ ∃ source, x = .device .countUp source ∧
      s.slots.deviceAt source = some k := by
  unfold ticks
  split
  · split
    · exact Or.inr (Or.inr ⟨rfl, _, rfl, ‹_›⟩)
    · exact Or.inl rfl
  · split
    · exact Or.inr (Or.inl rfl)
    · exact Or.inl rfl
  · exact Or.inl rfl

/-- Below zero nothing is added to a counter without ending the process. -/
theorem Holds.ticks_le (h : s.Holds k z) (hx : s.GoesOn x) (hz : z.natAbs < 2 ^ 63)
    (hneg : z < 0) : s.ticks k x ≤ 0 := by
  rcases s.ticks_cases k x with hticks | hticks | ⟨-, source, rfl, hk⟩
  · omega
  · omega
  · have houtcome := (h.simulates hk hz).countUp
    rw [if_pos hneg] at houtcome
    rw [GoesOn, Answer.goesOn, houtcome] at hx
    cases hx

/-- Where the process goes on, a counter is below zero just if it has underflowed. -/
theorem Holds.neg_iff (h : s.Holds k z) (hxs : s.All GoesOn xs)
    (hz : z.natAbs + s.strokes k xs < 2 ^ 63) :
    z + s.tally k xs < 0 ↔ z < 0 ∨ s.underflows k z xs := by
  induction xs generalizing s z with
  | nil => simp [tally, underflows]
  | cons x xs ih =>
    obtain ⟨hx, hxs⟩ := hxs
    rw [strokes] at hz
    have hnow : z + s.ticks k x < 0 ↔ z < 0 ∨ z = 0 ∧ s.ticks k x = -1 := by
      have hbelow := h.ticks_le hx (by omega)
      have hcases := s.ticks_cases k x
      omega
    have hrest := ih (h.step x) hxs (by omega)
    rw [tally, ← add_assoc, hrest, hnow, underflows, or_assoc]

end State

/-- A new counter answers as an integer without bounds, as long as it was called less often than
half the range of a word, whatever else was done and however the calls ended. Until it is taken from
at zero, a call tells that it took the last one just when it returns to zero. From then on no call
tells so, and one that adds to it ends the process. -/
theorem counters_simulate (s : State) (name : String) (xs : List Step)
    (hnew : s.isDone (.create .counter name) = true) :
    let s₀ := (s.step (.create .counter name)).2
    let k := s.world.store.size
    let t := s₀.after xs
    let z := s₀.tally k xs
    s₀.strokes k xs < 2 ^ 63 →
      t.slots.deviceAt name = some k ∧ t.Simulates name k z ∧
        (s₀.All State.GoesOn xs →
          (¬ s₀.underflows k 0 xs → 0 ≤ z ∧
            ((t.step (.device .countDown name)).1.outcome = .done (.flag true) ↔ z - 1 = 0)) ∧
          (s₀.underflows k 0 xs → z < 0 ∧
            (t.step (.device .countDown name)).1.outcome = .done (.flag false) ∧
              (t.step (.device .countUp name)).1.outcome = .aborted none)) := by
  intro s₀ k t z hxs
  obtain ⟨hzero, hslot⟩ := State.holds_created hnew
  have hslot' : t.slots.deviceAt name = some k := State.deviceAt_after hslot xs
  have hz : z.natAbs < 2 ^ 63 := Nat.lt_of_le_of_lt (s₀.natAbs_tally_le k xs) hxs
  have hholds : t.Holds k z := (zero_add z) ▸ hzero.after xs
  have hsim := hholds.simulates hslot' hz
  refine ⟨hslot', hsim, fun hgoes => ?_⟩
  have hneg : z < 0 ↔ s₀.underflows k 0 xs := by
    have := hzero.neg_iff hgoes (by simpa using hxs)
    rwa [zero_add, or_iff_right (lt_irrefl 0)] at this
  refine ⟨fun hnot => ?_, fun hunder => ?_⟩
  · have hpos : 0 ≤ z := not_lt.mp fun h => hnot (hneg.mp h)
    refine ⟨hpos, ?_⟩
    rw [hsim.countDown, sub_eq_zero]
    split
    · rename_i hat
      rw [hat.1]
      simp
    · simp
  · have hbelow := hneg.mpr hunder
    have hnot_zero : ¬ (z = 0 ∧ t.world.inForce.fatalChecks = true) := by omega
    have hnot_one : ¬ z = 1 := by omega
    refine ⟨hbelow, ?_, ?_⟩
    · rw [hsim.countDown, if_neg hnot_zero, decide_eq_false hnot_one]
    · rw [hsim.countUp, if_pos hbelow]

/-- A counter is taken from once too often, which unwinds, and once more. To add to it then ends the
process. -/
theorem counters_simulate_takenTwice :
    let s := State.initial {} (some ⟨true, true⟩)
    let s₀ := (s.step (.create .counter "c")).2
    let xs : List Step :=
      [.device .countUp "c", .device .countDown "c", .device .countDown "c",
        .device .countDown "c"]
    let t := s₀.after xs
    t.Simulates "c" s.world.store.size (-2) ∧
      (t.step (.device .countDown "c")).1.outcome = .done (.flag false) ∧
      (t.step (.device .countUp "c")).1.outcome = .aborted none := by
  intro s s₀ xs t
  have hnew : s.isDone (.create .counter "c") = true := by decide
  have hstrokes : s₀.strokes s.world.store.size xs < 2 ^ 63 := by decide
  have htally : s₀.tally s.world.store.size xs = -2 := by decide
  have hgoes : s₀.All State.GoesOn xs :=
    have going {s : State} {x : Step} (h : (s.step x).1.goesOn = true) : s.GoesOn x := h
    ⟨going (by decide), going (by decide), going (by decide), going (by decide), trivial⟩
  have hunder : s₀.underflows s.world.store.size 0 xs :=
    Or.inr (Or.inr (Or.inl ⟨by decide, by decide⟩))
  -- The rest does not depend on what the steps are, and need not run them.
  clear_value xs
  have h := counters_simulate s "c" xs hnew hstrokes
  clear_value s
  refine ⟨?_, ((h.2.2 hgoes).2 hunder).2⟩
  rw [← htally]
  exact h.2.1

end Session

end ObjectBoundary
