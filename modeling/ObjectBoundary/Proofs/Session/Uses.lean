import ObjectBoundary.Proofs.Acts.Uses
import ObjectBoundary.Proofs.Session.Reports

/-!
# Uses of wrappers and proxies after the start of shutdown

Once shutdown has begun, wrappers and proxies report that they are asked for what their objects
know, but not that references to them are passed around or asked about. Such a use is reported
only if something ceases to exist in it, once for each wrapper and proxy that does.

* `State.UsesCarrier`: a step that calls a function of a wrapper or proxy.
* `uses_reported`: when such a use is reported.
* `not_uses_reported`: not every use is reported.
-/

namespace ObjectBoundary.Session

open ObjectBoundary Act

variable {s : State} {x : Step} {slots : Slots} {p : Plan} {w : World}

/-! ## Uses -/

/-- The slot whose carrier a step with a handle uses, and what for. -/
def HandleStep.usage? : HandleStep → Option (String × Usage)
  | clone source _ | retain source _ | drop source | release source | ask _ source =>
    some (source, .ofReferences)
  | value source | otherValue source => some (source, .ofObject)
  | _ => none

/-- The entity that a slot holds a reference to or owns. -/
def Slot.carried? : Slot → Option Id
  | .handle o _ | .leaked o _ | .owner o _ => some o
  | _ => none

namespace State

/-- A step that calls a function of a wrapper or proxy that still exists: a member of the structure
of a wrapper on that or another structure, or a method of a proxy. -/
inductive UsesCarrier (s : State) : Step → Usage → Prop
  | member {source member : String} {r : Receiver} {y t : Id} {n : Node} {u : Structure} {i : Nat}
      {k : Usage} :
    s.slots.struct source = .ok y → StructStep.receiver s.slots y r = .ok (some t) →
      s.world.store.get? y = some n → n.live = true → n.entity.struct? = some u →
      u.layout.position? member = some i → u.isSet i = true → n.entity.usage? i = some k →
      s.UsesCarrier (.struct (.call source member r)) k
  | proxy {step : HandleStep} {source : String} {k : Usage} {slot : Slot} {y : Id} {n : Node} :
    step.usage? = some (source, k) → s.slots.find? source = some slot → slot.carried? = some y →
      s.world.store.get? y = some n → n.live = true → n.entity.isCarrier = true →
      s.UsesCarrier (.handle step) k

end State

/-! ## Steps with handles -/

theorem sparing_giveUp {slot : Slot} {act : Act Unit} (hb : w.IsBarred)
    (h : HandleStep.giveUp slot = .ok act) : Respects World.Sparing act w := by
  cases slot with
  | handle o view =>
    cases h
    exact sparing_drop hb o
  | owner o view =>
    cases h
    exact sparing_dispose hb o
  | loan y =>
    cases h
    exact sparing_dispose hb y
  | _ => cases h

/-- Passing references around reports no more than what ceases to exist. -/
theorem HandleStep.sparing {step : HandleStep} {source : String} (hb : w.IsBarred)
    (h : step.plan slots = .ok p) (hu : step.usage? = some (source, .ofReferences)) :
    Respects World.Sparing p.act w := by
  have answering {act : Act Value} (hact : Respects World.Sparing act w) :
      Respects World.Sparing (Plan.answering act).act w :=
    respects_map hact
  cases planned h with
  | clone _ _ o | retain _ _ o =>
    exact respects_map (sparing_retain o)
  | drop _ _ act _ hact => exact answering (respects_silently (sparing_giveUp hb hact))
  | release _ o => exact answering (respects_asTruth (sparing_release hb o))
  | ask question _ o => exact answering (respects_asTruth (sparing_ask question o))
  | _ => cases hu

/-- Whoever may be asked for a value through a slot is what the slot holds. -/
theorem HandleStep.carried?_of_askable {index : Nat} {slot : Slot} {o : Id}
    (h : askable index slot = .ok o) : slot.carried? = some o := by
  have asked {y : Id} (h : (if index = 0 then Except.ok y else .error Misuse.wrongKind) = .ok o) :
      y = o := by
    split at h
    · cases h
      rfl
    · cases h
  cases slot with
  | handle y view =>
    cases view with
    | client => exact congrArg some (asked h)
    | child =>
      cases h
      rfl
    | _ => cases h
  | owner y view =>
    cases view with
    | client => exact congrArg some (asked h)
    | child =>
      cases h
      rfl
  | _ => cases h

/-- Asking for a value is reported. -/
theorem HandleStep.reports {step : HandleStep} {source : String} {slot : Slot} {y : Id} {n : Node}
    (hb : w.IsBarred) (h : step.plan slots = .ok p)
    (hu : step.usage? = some (source, .ofObject)) (hslot : slots.find? source = some slot)
    (hy : slot.carried? = some y) (hn : w.store.get? y = some n)
    (hc : n.entity.isCarrier = true) : Reports p.act w := by
  have asked {index : Nat} {o : Id} {slot' : Slot}
      (hslot' : slots.argument (some source) = .ok slot')
      (ho : askable index slot' = .ok o) :
      Reports (Plan.answering (asNumber (answer index o))).act w := by
    cases hslot.symm.trans (Slots.argument_eq hslot')
    cases hy.symm.trans (carried?_of_askable ho)
    exact ((reports_answer hb hn hc index).bind fun _ => .pure _).bind fun _ => .pure _
  cases planned h with
  | value _ _ o hslot' ho | otherValue _ _ o hslot' ho =>
    cases hu
    exact asked hslot' ho
  | _ => cases hu

/-! ## Calls of members -/

/-- A call on a structure has the member found by its name and called. -/
theorem StructStep.call_apply {source member : String} {r : Receiver} {y : Id} {o : Option Id}
    {n : Node} {t : Structure} {i : Nat} (h : (call source member r).plan slots = .ok p)
    (hy : slots.struct source = .ok y) (hr : receiver slots y r = .ok o)
    (hn : w.store.get? y = some n) (hlive : n.live = true) (ht : n.entity.struct? = some t)
    (hi : t.layout.position? member = some i) (phase : Phase) :
    p.act phase w =
      (Act.call y i o >>= fun reply => pure (replyValue reply, Slot.null)) phase w := by
  obtain rfl : p = .answering do
      let i ← position y member
      return replyValue (← Act.call y i o) := by
    obtain ⟨_, _, _, y', o', hy', ho'⟩ := planned h
    cases (Slots.argument_of_struct hy).symm.trans hy'
    cases hr.symm.trans ho'
    rfl
  show ((position y member >>= fun i => Act.call y i o >>= fun reply => pure (replyValue reply)) >>=
    fun value => pure (value, Slot.null)) phase w = _
  rw [bind_assoc, bind_apply, position_apply hn hlive ht hi]
  simp only [bind_assoc, pure_bind]

namespace State

/-! ## Steps -/

/-- Where reports tell of what ceases to exist and of nothing else, there is one for each. -/
theorem reports_of_sparing (hb : s.world.IsBarred) (hp : x.plan s.slots = .ok p)
    (hworld : (s.step x).2.world = (p.act .normal s.begun).2)
    (h : Respects World.Sparing p.act s.begun) :
    (s.step x).2.world.reports = (s.discarded x).card := by
  have hsparing := h .normal
  have hwatched : s.begun.Watched (p.act .normal s.begun).2 := Step.watched hp hb
  rw [← hworld] at hsparing hwatched
  have hturn : (s.introduced x).card + (s.discarded x).card + s.begun.store.turnover =
      (s.step x).2.world.store.turnover := hwatched.preserves.turnover_eq
  have hnone : (s.introduced x).card = 0 := by
    have hadds : s.begun.store.AddsNoCarrier (s.step x).2.world.store := .of_size hsparing.size
    exact Finset.card_eq_zero.mpr (hadds.introduced_eq hwatched.preserves)
  have hspent := hsparing.spent
  have hreported := hwatched.reported
  have hstart : s.begun.reports = 0 := rfl
  omega

theorem uses_reported_step {k : Usage} (hb : s.world.IsBarred) (hu : s.UsesCarrier x k)
    (h : s.accepts x = true) :
    (k = .ofReferences → (s.step x).2.world.reports = (s.discarded x).card) ∧
      (k = .ofObject → 0 < (s.step x).2.world.reports) := by
  obtain ⟨p, hp, -, hworld, hnot⟩ := world_of_accepts h
  have hb' : s.begun.IsBarred := hb
  have reported (hreports : Reports p.act s.begun) : 0 < (s.step x).2.world.reports := by
    rw [hworld]
    exact (hreports .normal).resolve_right fun ⟨m, hm⟩ => hnot m hm
  have spared (hsparing : Respects World.Sparing p.act s.begun) :
      (s.step x).2.world.reports = (s.discarded x).card :=
    reports_of_sparing hb hp hworld hsparing
  cases hu with
  | @member source member r y t n u i k hy hr hn hlive hu hi hset hk =>
    have hact := StructStep.call_apply (w := s.begun) hp hy hr hn hlive hu hi
    refine ⟨fun he => spared fun phase => ?_, fun he => reported fun phase => ?_⟩
    · rw [hact phase]
      exact respects_bind (sparing_call hb' hn (he ▸ hk)) (fun _ _ _ => respects_pure _) phase
    · rw [hact phase]
      exact (reports_call hb' hn hu hset (he ▸ hk)).bind (fun _ => .pure _) phase
  | @proxy step source k slot y n hk hslot hy hn hlive hc =>
    refine ⟨fun he => ?_, fun he => ?_⟩
    · exact spared (HandleStep.sparing hb' hp (he ▸ hk))
    · exact reported (HandleStep.reports hb' hp (he ▸ hk) hslot hy hn hc)

end State

/-- Once shutdown has begun, a wrapper or proxy that is used reports it if it is asked for what its
object knows. If references to it are taken, given up or asked about, or it is deleted, there is one
report for each wrapper and proxy that ceases to exist, and no other. -/
theorem uses_reported (e : Environment) (c : Option Settings) (xs : List Step) (x : Step)
    (k : Usage) :
    let s := (State.initial e c).after xs
    s.world.IsBarred → s.UsesCarrier x k → s.accepts x = true →
      (k = .ofReferences → (s.step x).2.world.reports = (s.discarded x).card) ∧
        (k = .ofObject → 0 < (s.step x).2.world.reports) :=
  State.uses_reported_step

/-- A wrapper of an object, held when shutdown begins. -/
def wrappedAtShutdown : List Step :=
  [.create (.sharedObject ⟨.client 7, none⟩) "a", .shared (.wrap .client (some "a") "w"),
    .process .shutDown]

theorem isBarred_wrappedAtShutdown (fatal : Bool) :
    ((State.initial {} (some ⟨fatal, true⟩)).after wrappedAtShutdown).world.IsBarred := by
  cases fatal <;> exact ⟨rfl, _, rfl, rfl⟩

/-- The wrapper reports that it is asked for the value, and that it goes with its last reference. -/
theorem uses_reported_wrapped :
    let s (fatal : Bool) := (State.initial {} (some ⟨fatal, true⟩)).after wrappedAtShutdown
    let call (member : String) : Step := .struct (.call "w" member .itself)
    0 < ((s true).step (call "get_value")).2.world.reports ∧
      (s false).discarded (call "release") = {1} ∧
      ((s false).step (call "release")).2.world.reports = 1 := by
  intro s call
  have hvalue : (s true).UsesCarrier (call "get_value") .ofObject :=
    .member rfl rfl rfl rfl rfl rfl rfl rfl
  have hrelease : (s false).UsesCarrier (call "release") .ofReferences :=
    .member rfl rfl rfl rfl rfl rfl rfl rfl
  have hdiscarded : (s false).discarded (call "release") = {1} := by decide
  have hreported := (uses_reported {} (some ⟨true, true⟩) wrappedAtShutdown (call "get_value")
    .ofObject (isBarred_wrappedAtShutdown true) hvalue (by decide)).2 rfl
  have hcounted := (uses_reported {} (some ⟨false, true⟩) wrappedAtShutdown (call "release")
    .ofReferences (isBarred_wrappedAtShutdown false) hrelease (by decide)).1 rfl
  refine ⟨hreported, hdiscarded, ?_⟩
  rw [hdiscarded] at hcounted
  exact hcounted

/-- Not every use of a wrapper or proxy is reported: another reference to the wrapper can be taken
in silence, although failed checks are fatal. -/
theorem not_uses_reported :
    ¬ ∀ (c : Settings) (xs : List Step) (x : Step) (k : Usage),
      let s := (State.initial {} (some c)).after xs
      c.fatalChecks = true → s.world.IsBarred → s.UsesCarrier x k → s.accepts x = true →
        0 < (s.step x).2.world.reports := by
  intro h
  have hreported := h ⟨true, true⟩ wrappedAtShutdown (.struct (.call "w" "add_ref" .itself))
    .ofReferences rfl (isBarred_wrappedAtShutdown true) (.member rfl rfl rfl rfl rfl rfl rfl rfl)
    (by decide)
  exact absurd hreported (by decide)

end ObjectBoundary.Session
