import ObjectBoundary.Proofs.Acts.Offered
import ObjectBoundary.Proofs.Ownership.Owners
import ObjectBoundary.Proofs.Session.Bypassing
import ObjectBoundary.Proofs.Session.History
import ObjectBoundary.Proofs.Session.Lifespan
import ObjectBoundary.Proofs.Session.Transfers
import ObjectBoundary.Proofs.Session.Uses

/-!
# Structures of other versions

A structure that crosses the boundary may be of another version: it records any size, and any of
its members may be null. Whoever is asked for a value copes with that. Before shutdown a proxy calls
the member of its structure once and answers what the member does, if the member lies within the
recorded size and is not null; otherwise it calls nothing and answers zero. The recorded size is all
that it goes by: if that reaches beyond the structure, a word behind the members is called as well.

* `State.AsksFor`, `State.AsksThrough`: steps that ask for a value.
* `State.PassesOn`, `State.AnswersZero`: the two things that a proxy may do.
* `State.CallsOffered`: how a session copes with other versions.
* `calls_offered`: every reachable state does, before shutdown.
-/

namespace ObjectBoundary.Session

open ObjectBoundary Act

variable {s : State} {x : Step} {out : Ledger} {q t : Id} {index : Nat} {n : Node} {e : Entity}
  {u : Structure}

/-! ## Steps that ask for a value -/

/-- A step that asks for the value of `get_value` or `get_other_value`. -/
def Step.asksForValue : Step → Bool
  | .handle (.value _) | .handle (.otherValue _) => true
  | _ => false

namespace State

/-- A step asks the object of a slot for the value at an index. -/
inductive AsksFor (s : State) (q : Id) : Nat → Step → Prop
  | value {source : String} {slot : Slot} : s.slots.find? source = some slot →
    HandleStep.askable 0 slot = .ok q → s.AsksFor q 0 (.handle (.value source))
  | otherValue {source : String} {slot : Slot} : s.slots.find? source = some slot →
    HandleStep.askable 1 slot = .ok q → s.AsksFor q 1 (.handle (.otherValue source))

/-- A step asks some object for a value. -/
def Asks (s : State) (x : Step) : Prop := ∃ q index, s.AsksFor q index x

/-- A step asks a proxy, of any class, whose structure still exists. -/
inductive AsksThrough (s : State) (x : Step) (index : Nat) (t : Id) (e : Entity) : Prop
  | intro {q : Id} {n : Node} {name : String} : s.AsksFor q index x →
    s.world.store.get? q = some n → n.entity.isProxy = true → n.entity.below? = some t →
    s.world.store.get? t = some ⟨name, e, true⟩ → s.AsksThrough x index t e

/-- After a look at the settings, a step calls the word at a position of a structure on the
structure itself, and it ends as the function there does. -/
def PassesOn (s : State) (x : Step) (t : Id) (u : Structure) (i : Nat) : Prop :=
  ∃ w, Consults s.begun w ∧ w.calls = [] ∧
    let called :=
      (calling u i (call t i (some t)) >>= fun r => pure (StructStep.replyValue r)) .normal w
    (s.step x).1.outcome = called.1 ∧
      ((∀ m, called.1 ≠ .refused m) → (s.step x).2.world = called.2)

/-- A step answers zero and calls nothing. -/
def AnswersZero (s : State) (x : Step) : Prop :=
  (s.step x).1.outcome = .done (.number 0) ∧ (s.step x).2.world.calls = [] ∧
    Consults s.begun (s.step x).2.world

theorem AsksFor.plan (h : s.AsksFor q index x) :
    x.plan s.slots = .ok (.answering (asNumber (answer index q))) := by
  cases h with
  | @value source slot hfind ho =>
    show (s.slots.argument (some source) >>= fun slot => HandleStep.askable 0 slot >>= _) = _
    rw [Slots.argument_of_find? hfind]
    show (HandleStep.askable 0 slot >>= _) = _
    rw [ho]
    rfl
  | @otherValue source slot hfind ho =>
    show (s.slots.argument (some source) >>= fun slot => HandleStep.askable 1 slot >>= _) = _
    rw [Slots.argument_of_find? hfind]
    show (HandleStep.askable 1 slot >>= _) = _
    rw [ho]
    rfl

/-- Whoever is asked for a value is held by a handle or an owner. -/
theorem AsksFor.exists_slot (h : s.AsksFor q index x) : ∃ source,
    (∃ view, s.slots.find? source = some (.handle q view)) ∨
      ∃ view, s.slots.find? source = some (.owner q view) := by
  have hslot {source : String} {slot : Slot} {index : Nat}
      (hfind : s.slots.find? source = some slot) (ho : HandleStep.askable index slot = .ok q) :
      (∃ view, s.slots.find? source = some (.handle q view)) ∨
        ∃ view, s.slots.find? source = some (.owner q view) := by
    have hcarried := HandleStep.carried?_of_askable ho
    cases slot with
    | handle o view =>
      cases hcarried
      exact Or.inl ⟨view, hfind⟩
    | owner o view =>
      cases hcarried
      exact Or.inr ⟨view, hfind⟩
    | _ => cases ho
  cases h with
  | value hfind ho => exact ⟨_, hslot hfind ho⟩
  | otherValue hfind ho => exact ⟨_, hslot hfind ho⟩

/-- Whoever is asked for a value is an object. -/
theorem AsksFor.role (h : s.AsksFor q index x) (hfit : s.slots.Fit s.world.store)
    (hn : s.world.store.get? q = some n) :
    n.entity.role = .sharedObject ∨ n.entity.role = .ownedObject := by
  obtain ⟨source, ⟨view, hfind⟩ | ⟨view, hfind⟩⟩ := h.exists_slot
  · obtain ⟨m, hm, hrole⟩ : s.world.store.HasRole q .sharedObject := hfit.find? hfind
    cases hn.symm.trans hm
    exact Or.inl hrole
  · obtain ⟨m, hm, hrole⟩ : s.world.store.HasRole q .ownedObject := hfit.find? hfind
    cases hn.symm.trans hm
    exact Or.inr hrole

/-- What a handle or an owner holds exists. -/
theorem AsksFor.exists_live (h : s.AsksFor q index x) (hs : Reachable State.Undisturbed s out) :
    ∃ n, s.world.store.get? q = some n ∧ n.live = true := by
  have hb := hs.balanced
  obtain ⟨source, ⟨view, hfind⟩ | ⟨view, hfind⟩⟩ := h.exists_slot
  · obtain ⟨n, hn, hrole⟩ : s.world.store.HasRole q .sharedObject := hb.fit.find? hfind
    have hreferences := hb.one_le_references hfind rfl
    rw [Store.references_eq hn] at hreferences
    have hcounted := hb.sound.counted q n hn
    refine ⟨n, hn, ?_⟩
    obtain ⟨name, e, live⟩ := n
    cases e with
    | sharedObject o =>
      have href : (1 : Int) ≤ o.count.toNat := hreferences
      exact hcounted.live_iff.mpr (by omega)
    | sharedProxy p =>
      have href : (1 : Int) ≤ p.count.toNat := hreferences
      exact hcounted.live_iff.mpr (by omega)
    | _ => cases hrole
  · have howns : s.Owns (.slot source) q := ⟨view, hfind⟩
    exact (Store.presence_eq_one_iff.mp (hs.kept.presence_of_owns hb howns)).1

/-- Whatever comes of it, asking for a value concerns no entity and no slot. -/
theorem step_of_asksForValue (s : State) (h : x.asksForValue = true) :
    (s.step x).2.world.store = s.world.store ∧ (s.step x).2.slots = s.slots := by
  have hlooks : x.looks = true := by
    match x, h with
    | .handle (.value _), _ => rfl
    | .handle (.otherValue _), _ => rfl
  constructor
  · rcases s.step_world x with (hworld | hworld) | ⟨p, hp, -, hworld⟩
    · rw [hworld]
    · rw [hworld]
      rfl
    · obtain ⟨act, rfl, hquiet⟩ := Step.quiet_of_looks hlooks hp
      have hrespects : Respects World.Quiet (Plan.answering act).act s.begun :=
        respects_map (hquiet s.begun)
      rw [hworld]
      exact (hrespects .normal).store
  · rcases s.step_slots x with hslots | ⟨p, hp, -, hslots⟩
    · exact hslots
    · obtain ⟨act, rfl, -⟩ := Step.quiet_of_looks hlooks hp
      rcases hslots with hslots | ⟨name, slot, hmakes, -⟩
      · exact hslots
      · cases hmakes

end State

/-! ## Asking proxies -/

section Asking

variable (h : Reachable State.Undisturbed s out) (hd : s.world.isShutdown = false)
include h hd

/-- A proxy whose structure was taken out answers zero. -/
theorem answersZero_hollow (hx : s.AsksFor q index x) (hn : s.world.store.get? q = some n)
    (hq : n.entity.isProxy = true) (ht : n.entity.below? = none) : s.AnswersZero x := by
  obtain ⟨m, hm, hlive⟩ := hx.exists_live h
  cases hn.symm.trans hm
  obtain ⟨w, hw, hc⟩ := requireRunning_passes (w := s.begun) hd .normal
  have hact : asNumber (answer index q) .normal s.begun = (.done (.number 0), w) := by
    rw [asNumber, bind_apply,
      agrees_answer_hollow (w := s.begun) h.balanced.sound hn hlive hq ht index .normal,
      bind_apply, hw]
    rfl
  obtain ⟨houtcome, hworld⟩ := State.step_of_answering hx.plan hact nofun
  have hcalls := calls_requireRunning s.begun .normal
  rw [hw] at hcalls
  exact ⟨houtcome, hworld ▸ hcalls, hworld ▸ hc⟩

section Through

variable (hx : s.AsksThrough x index t e) (hu : e.struct? = some u)
include hx hu

/-- A proxy looks at the settings, and then it asks its structure or answers zero. -/
theorem answer_through : ∃ q w, x.plan s.slots = .ok (.answering (asNumber (answer index q))) ∧
    Consults s.begun w ∧ w.calls = [] ∧
      answer index q .normal s.begun =
        (if u.offers (e.role.member index) then
          calling u (e.role.member index) (contained (answer index t)) else pure 0) .normal w := by
  obtain @⟨q, n, name, hasks, hn, hq, ht, hm⟩ := hx
  obtain ⟨n', hn', hlive⟩ := hasks.exists_live h
  cases hn.symm.trans hn'
  have hs := h.balanced.sound
  obtain ⟨w, hw, hc⟩ := requireRunning_passes (w := s.begun) hd .normal
  have hcalls := calls_requireRunning s.begun .normal
  rw [hw] at hcalls
  have hlink : n.entity.linkRole = e.role := by
    obtain ⟨-, m, hm', hrole⟩ := hs.linked q n t hn ht
    cases hm.symm.trans hm'
    exact hrole.symm
  refine ⟨q, w, hasks.plan, hc, hcalls, ?_⟩
  rw [agrees_answer_proxy (w := s.begun) hs hn hlive hq ht hm rfl hu index .normal, bind_apply, hw,
    hlink]

theorem answersZero_missing (hmissing : u.offers (e.role.member index) = false) :
    s.AnswersZero x := by
  obtain ⟨q, w, hplan, hc, hcalls, hanswer⟩ := answer_through h hd hx hu
  rw [hmissing] at hanswer
  have hact : asNumber (answer index q) .normal s.begun = (.done (.number 0), w) := by
    rw [asNumber, bind_apply, hanswer]
    rfl
  obtain ⟨houtcome, hworld⟩ := State.step_of_answering hplan hact nofun
  exact ⟨houtcome, hworld ▸ hcalls, hworld ▸ hc⟩

variable (hoffers : u.offers (e.role.member index) = true)
include hoffers

/-- What a structure offers is called once, with the structure as its receiver. -/
theorem passesOn_offered : s.PassesOn x t u (e.role.member index) := by
  obtain ⟨q, w, hplan, hc, hcalls, hanswer⟩ := answer_through h hd hx hu
  refine ⟨w, hc, hcalls, ?_⟩
  obtain @⟨_, _, name, -, -, -, -, hm⟩ := hx
  have hm' : w.store.get? t = some ⟨name, e, true⟩ := by
    rw [hc.quiet.store]
    exact hm
  have hvacant : e.isVacant = false := by
    by_contra hv
    exact h.not_isVacant t ⟨_, hm, rfl, by simpa using hv⟩
  have hs : w.store.Sound := by
    rw [hc.quiet.store]
    exact h.balanced.sound
  have hset : u.isSet (e.role.member index) = true := (Bool.and_eq_true_iff.mp hoffers).2
  have hcall := agrees_call hs hm' rfl hu hvacant hset
  have hact : asNumber (answer index q) .normal s.begun =
      (calling u (e.role.member index) (call t (e.role.member index) (some t)) >>=
        fun r => pure (StructStep.replyValue r)) .normal w := by
    rw [(hcall.calling u _).bind _ .normal, calling_bind, bind_assoc, asNumber, bind_apply,
      bind_apply, hanswer, if_pos hoffers]
    rcases calling u (e.role.member index) (contained (answer index t)) .normal w with
      ⟨_ | _ | _ | _, w'⟩ <;> rfl
  rw [← hact]
  exact ⟨State.outcome_of_answering hplan, State.world_of_answering hplan⟩

/-- A structure of the far side answers itself, and its function is the only one that is called. -/
theorem calls_far {a : FarAnswers} {member : String} {r : Int32} (ha : e.answers? = some a)
    (hr : a.value? index = some (member, r)) :
    (s.step x).1.outcome = .done (.number r.toInt) ∧ (s.step x).2.world.calls = [(t, member)] := by
  obtain ⟨q, w, hplan, hc, hcalls, hanswer⟩ := answer_through h hd hx hu
  obtain @⟨_, _, name, -, -, -, -, hm⟩ := hx
  have hm' : w.store.get? t = some ⟨name, e, true⟩ := by
    rw [hc.quiet.store]
    exact hm
  have hs : w.store.Sound := by
    rw [hc.quiet.store]
    exact h.balanced.sound
  have hfar : Agrees (answer index t) (farAnswer t a index) w := by
    refine (answer_eq hs index t).trans (agrees_entity_bind hm' rfl ?_)
    cases e <;> first | (cases ha; exact agrees_refl _ _) | cases ha
  have hmember : u.hasMember (e.role.member index) = true :=
    Structure.hasMember_of_position? ((hs.formed t _ hm').position_member ha hu hr)
  have hact : asNumber (answer index q) .normal s.begun =
      (.done (.number r.toInt), { w with log := w.log ++ [.called t member] }) := by
    rw [asNumber, bind_apply, hanswer, if_pos hoffers, calling_of_hasMember hmember,
      hfar.contained .normal, contained_farAnswer, farAnswer, hr]
    rfl
  obtain ⟨houtcome, hworld⟩ := State.step_of_answering hplan hact nofun
  refine ⟨houtcome, ?_⟩
  rw [hworld, World.calls, List.filterMap_append, show w.log.filterMap Event.call? = [] from hcalls]
  rfl

end Through

end Asking

/-! ## Several steps -/

/-- However often somebody is asked for a value, nothing is called that is not offered. -/
theorem calls_logged {xs : List Step} (hs : s.world.store.Sound)
    (hfit : s.slots.Fit s.world.store)
    (hxs : s.All State.Asks xs) :
    ∀ c ∈ (s.logged xs).filterMap Event.call?, s.world.store.Offers c.1 c.2 := by
  induction xs generalizing s with
  | nil => exact nofun
  | cons x xs ih =>
    obtain ⟨⟨q, index, hx⟩, hxs⟩ := hxs
    have hasks : x.asksForValue = true := by cases hx <;> rfl
    obtain ⟨hstore, hslots⟩ := s.step_of_asksForValue hasks
    have hwithin : s.begun.CallsWithin s.world.store.Offers (s.step x).2.world := by
      have hanswer : Respects (World.CallsWithin s.world.store.Offers)
          (Plan.answering (asNumber (answer index q))).act s.begun := by
        refine respects_map (respects_asNumber ?_)
        refine within_answer (w := s.begun) hs fun n u hn hu => ?_
        cases (Entity.struct?_eq_none (hx.role hfit hn)).symm.trans hu
      rw [State.step_of_plan hx.plan rfl]
      rcases s.carryOut_world (.answering (asNumber (answer index q))) with hworld | hworld
      · rw [hworld]
        exact hanswer .normal
      · rw [hworld]
        exact refl_of (World.CallsWithin s.world.store.Offers) s.begun
    intro c hc
    rw [State.logged, List.filterMap_append, List.mem_append] at hc
    rcases hc with hc | hc
    · obtain ⟨-, l, hl, hall⟩ := hwithin
      have hmem : c ∈ (s.step x).2.world.calls := hc
      rw [hl, show s.begun.calls = [] from rfl, List.nil_append] at hmem
      exact hall c hmem
    · rw [← hstore]
      exact ih (hstore ▸ hs) (by rw [hstore, hslots]; exact hfit) hxs c hc

/-! ## Every state before shutdown -/

/-- How a session copes with structures of other versions. -/
structure State.CallsOffered (s : State) : Prop where
  /-- Asking for a value changes no count, no ownership and no deletion. -/
  unchanged : ∀ x, x.asksForValue = true →
    (s.step x).2.world.store = s.world.store ∧ (s.step x).2.slots = s.slots
  /-- A member that lies within the recorded size and is not null is called once, and its result
  is the answer. -/
  offered : ∀ x index t e u, s.AsksThrough x index t e → e.struct? = some u →
    Layout.offset (e.role.member index) + Layout.wordSize ≤ u.size.toNat ∧
      u.isSet (e.role.member index) = true →
    s.PassesOn x t u (e.role.member index) ∧
      ∀ a member r, e.answers? = some a → a.value? index = some (member, r) →
        (s.step x).1.outcome = .done (.number r.toInt) ∧
          (s.step x).2.world.calls = [(t, member)]
  /-- A word behind the members is no exception: it is called if the recorded size covers it. As it
  is no function, nothing is known of the call, and the step is refused. -/
  behind : ∀ x index t e u, s.AsksThrough x index t e → e.struct? = some u →
    u.hasMember (e.role.member index) = false →
    Layout.offset (e.role.member index) + Layout.wordSize ≤ u.size.toNat →
    (s.step x).1.outcome = .refused .forged
  missing : ∀ x index t e u, s.AsksThrough x index t e → e.struct? = some u →
    ¬ (Layout.offset (e.role.member index) + Layout.wordSize ≤ u.size.toNat ∧
      u.isSet (e.role.member index) = true) → s.AnswersZero x
  /-- A proxy whose structure was taken out has nothing to call. -/
  hollow : ∀ x index q n, s.AsksFor q index x → s.world.store.get? q = some n →
    n.entity.isProxy = true → n.entity.below? = none → s.AnswersZero x
  sequence : ∀ xs, s.All State.Asks xs →
    ∀ c ∈ (s.logged xs).filterMap Event.call?, s.world.store.Offers c.1 c.2

/-- What is behind the members is no function. -/
theorem State.PassesOn.refused {i : Nat} (h : s.PassesOn x t u i)
    (hmember : u.hasMember i = false) : (s.step x).1.outcome = .refused .forged := by
  obtain ⟨w, -, -, houtcome, -⟩ := h
  rw [houtcome, calling, hmember]
  rfl

/-- A structure of the client class that records the size of the child class has a value, but what
it seems to have as other value is the count of its wrapper. -/
example :
    let s := (State.initial {} none).after
      [.create (.sharedObject ⟨.client 7, none⟩) "a", .shared (.wrap .client (some "a") "w"),
        .struct (.resize "w" 56), .shared (.receive .child (some "w") "p")]
    (s.step (.handle (.value "p"))).1.outcome = .done (.number 7) ∧
      (s.step (.handle (.otherValue "p"))).1.outcome = .refused .forged := ⟨rfl, rfl⟩

end ObjectBoundary.Session
