import ObjectBoundary.Proofs.Acts.HandOver
import ObjectBoundary.Proofs.Session.Backed
import ObjectBoundary.Proofs.Session.Reports

/-!
# Hand-overs of a session

Four kinds of steps take a handle or an owned object by value and hand it over: wrapping it, and
getting the structure of a proxy back, each for references and for single owners. Whatever it is
that unwinds in such a step, what it took is given up once, unless it was an object to be given
away: that is lost.

* `Upright`: what holds in all states, even when a wrapper was severed from its object.
* `HandOver`: the four kinds of steps.
* `handed_over_once`: what becomes of the handle or the object, if such a step unwinds.
* `not_handed_over_once`: an object that is neither given away nor destroyed.
-/

namespace ObjectBoundary.Session

open ObjectBoundary Act

variable {s : State} {x : Step} {out : Ledger} {slots : Slots} {p : Plan} {w w' : World}

/-! ## States that are reached in any way -/

/-- What holds in all states: the store is sound, each slot holds something of its kind, and the
settings are in force once shutdown has begun. -/
structure Upright (s : State) : Prop where
  sound : s.world.store.Sound
  fit : s.slots.Fit s.world.store
  prepared : s.world.IsPrepared

theorem upright_initial (e : Environment) (c : Option Settings) : Upright (.initial e c) :=
  ⟨(balanced_initial e c).sound, (balanced_initial e c).fit, nofun⟩

namespace Upright

/-- What was used up aside, a step that unwinds may have severed a wrapper from its object. -/
theorem turns_of_unwound {e : Failure} (h : Upright s) (hp : x.plan s.slots = .ok p)
    (hact : p.act .normal s.begun = (.unwound e, w')) : ∃ δ, s.begun.Turns w' δ := by
  have hbalances := Step.balances (w := s.begun) hp h.sound h.fit
  rcases ends_of_unwound hbalances hact with hd | hturns
  · by_cases hsevers : ∀ y, ¬ s.Severs x y
    · have hclosed (hx : ∀ step, x ≠ .process step) : s.begun.IsClosed :=
        Step.isClosed_of_disturbed hp hx h.prepared hact hd
      obtain ⟨δ, hturns, -⟩ := Step.retreats (w := s.begun) hp hclosed h.sound h.fit
        (fun y hy => hsevers y (State.severs_begun.mp hy)) e w' hact
      exact ⟨δ, hturns⟩
    · obtain ⟨y, hy⟩ := not_forall_not.mp hsevers
      obtain ⟨v, hsevered⟩ := hy.severed hp h.sound hact
      exact ⟨_, hsevered.turns⟩
  · exact ⟨_, hturns⟩

theorem step (h : Upright s) (hx : s.Proceeds x) : Upright (s.step x).2 := by
  obtain ⟨p, hp, -, hcases⟩ := State.proceeds_cases hx
  have hprepared := s.prepares_step x h.prepared
  have hremaining {δ : Id → Int} {w' : World} (hturns : s.begun.Turns w' δ) :
      (State.remaining s.slots p).Fit w'.store := (h.fit.mono hturns.continues).remaining p
  rcases hcases with ⟨value, slot, w', hact, -, hstep⟩ | ⟨e, w', hact, -, hstep⟩
  · have hbalances := Step.balances (w := s.begun) hp h.sound h.fit
    obtain ⟨hturns, hfits, -⟩ := ends_of_done hbalances hact
    rw [hstep] at hprepared ⊢
    refine ⟨hturns.sound, ?_, hprepared⟩
    cases p.makes with
    | none => exact hremaining hturns
    | some name => exact (hremaining hturns).add name hfits
  · obtain ⟨δ, hturns⟩ := h.turns_of_unwound hp hact
    rw [hstep] at hprepared ⊢
    exact ⟨hturns.sound, hremaining hturns, hprepared⟩

end Upright

theorem Reachable.upright (h : Reachable State.Proceeds s out) : Upright s := by
  induction h with
  | initial e c => exact upright_initial e c
  | step x _ hx ih => exact ih.step hx

/-! ## Steps that hand something over -/

/-- A step that takes a handle or an owned object by value to hand it over. -/
inductive HandOver where
  | wrap (c : SharedClass)
  | giveBack (c : ProxyClass)
  | give (c : OwnedClass)
  | surrender (c : ProxyClass)

namespace HandOver

def step (source : Option String) (name : String) : HandOver → Step
  | wrap c => .shared (.wrap c source name)
  | giveBack c => .shared (.giveBack c source name)
  | give c => .owned (.give c source name)
  | surrender c => .owned (.surrender c source name)

/-- What is taken out of a slot. -/
def taken? : HandOver → Slot → Option Id
  | wrap _, .handle o _ | giveBack _, .handle o _ => some o
  | give _, .owner o _ | surrender _, .owner o _ => some o
  | _, _ => none

def role : HandOver → Role
  | wrap _ | giveBack _ => .sharedObject
  | give _ | surrender _ => .ownedObject

/-- The operation on what was taken unwinds. -/
def Unwinds (x : HandOver) (name : String) (o : Id) (w : World) (e : Failure) (w' : World) : Prop :=
  match x with
  | wrap c => c.wrap name o .normal w = (.unwound e, w')
  | giveBack c => c.giveBack o .normal w = (.unwound e, w')
  | give c => c.give name o .normal w = (.unwound e, w')
  | surrender c => c.surrender o .normal w = (.unwound e, w')

/-- What was taken is given up once. Only an object that was to be given away stays, in the hands of
nobody. -/
def Undoes (x : HandOver) (st st' : Store) (o : Id) : Prop :=
  match x with
  | give _ => st' = st
  | _ => st.GivesUp st' o

variable {h : HandOver} {name : String} {source : Option String} {slot : Slot} {o : Id}
  {e : Failure}

theorem hasRole_of_taken {st : Store} (hslot : h.taken? slot = some o) (hfits : slot.Fits st) :
    st.HasRole o h.role := by
  cases h <;> cases slot <;> cases hslot <;> exact hfits

theorem step_ne_process (step : ProcessStep) : h.step source name ≠ .process step := by
  cases h <;> exact Step.noConfusion

/-- Holding the result does not unwind. -/
theorem unwound_of_holding {α : Type} {act : Act α} {g : α → Option Id}
    (hact : (act >>= fun r => holding .struct (g r)) .normal w = (.unwound e, w')) :
    act .normal w = (.unwound e, w') :=
  unwound_of_bind (fun _ _ => ends_holding fun _ => trivial) hact

/-- A step that takes something by value uses the slot up. -/
theorem unwound_of_plan (hp : (h.step source name).plan slots = .ok p)
    (hact : p.act .normal w = (.unwound e, w')) :
    ∃ key slot o, source = some key ∧ slots.find? key = some slot ∧ h.taken? slot = some o ∧
      p.consumes = some key ∧ h.Unwinds name o w e w' := by
  have hkey {slot : Slot} (ho : slots.argument source = .ok slot) (hnull : slot ≠ .null) :
      ∃ key, source = some key ∧ slots.find? key = some slot :=
    Option.bind_eq_some_iff.mp (Slots.find?_of_argument ho hnull)
  cases h with
  | wrap c =>
    cases SharedStep.planned (x := .wrap c source name) hp with
    | null => cases hact
    | wrap _ _ _ o ho =>
      obtain ⟨key, rfl, hfind⟩ := hkey ho nofun
      exact ⟨key, _, o, rfl, hfind, rfl, rfl, unwound_of_holding (g := some) hact⟩
  | giveBack c =>
    cases SharedStep.planned (x := .giveBack c source name) hp with
    | null => cases hact
    | giveBack _ _ _ o ho =>
      obtain ⟨key, rfl, hfind⟩ := hkey ho nofun
      exact ⟨key, _, o, rfl, hfind, rfl, rfl, unwound_of_holding (g := id) hact⟩
  | give c =>
    cases OwnedStep.planned (x := .give c source name) hp with
    | null => cases hact
    | give _ _ _ o ho =>
      obtain ⟨key, rfl, hfind⟩ := hkey ho nofun
      exact ⟨key, _, o, rfl, hfind, rfl, rfl, unwound_of_holding (g := some) hact⟩
  | surrender c =>
    cases OwnedStep.planned (x := .surrender c source name) hp with
    | null => cases hact
    | surrender _ _ _ o ho =>
      obtain ⟨key, rfl, hfind⟩ := hkey ho nofun
      exact ⟨key, _, o, rfl, hfind, rfl, rfl, unwound_of_holding (g := id) hact⟩

/-- Where the check of the start of shutdown unwinds it comes first; whatever else unwinds leaves
what was taken to be given up. -/
theorem undoes_of_unwinds (hs : w.store.Sound) (hr : w.store.HasRole o h.role)
    (hclosed : World.Disturbed e w' → w.IsClosed) (hunwinds : h.Unwinds name o w e w') :
    h.Undoes w.store w'.store o := by
  cases h with
  | wrap c =>
    have hd := ends_of_unwound (c.ends_wrap name hs hr) hunwinds
    exact (givesUp_of_wrap (hclosed hd) hs hunwinds).store hr
  | giveBack c =>
    rcases ends_of_unwound (c.ends_giveBack hs o) hunwinds with hd | hgives
    · exact (givesUp_of_giveBack (hclosed hd) hs hunwinds).store hr
    · exact hgives.store hr
  | give c => exact (OwnedClass.quiet_of_give hunwinds).store
  | surrender c =>
    refine .owner hr ?_
    rcases ends_of_unwound (c.ends_surrender_destroys hs.linked hr) hunwinds with hd | hdestroys
    · exact ProxyClass.destroys_of_surrender (hclosed hd) hs.linked hr hunwinds
    · exact hdestroys

end HandOver

/-- A hand-over that unwinds gives up what it took by value, once: the object of a handle has one
reference less, and goes with the last one; an owned object is destroyed with all that it owns. Only
an object that was to be given away is neither given away nor destroyed. -/
theorem handed_over_once (x : HandOver) (source : Option String) (name : String) {e : Failure}
    (h : Reachable State.Proceeds s out)
    (hx : (s.step (x.step source name)).1.outcome = .unwound e) :
    let s' := (s.step (x.step source name)).2
    ∃ key slot o, source = some key ∧ s.slots.find? key = some slot ∧ x.taken? slot = some o ∧
      s'.slots = s.slots.without key ∧ x.Undoes s.world.store s'.world.store o ∧
      ∀ z, s'.world.drops z + s'.world.store.standing z = s.world.store.standing z := by
  intro s'
  have hupright := h.upright
  have hproceeds : s.Proceeds (x.step source name) := by
    rw [State.Proceeds, hx]
    trivial
  obtain ⟨p, hp, -, hcases⟩ := State.proceeds_cases hproceeds
  rcases hcases with ⟨value, slot, w', -, houtcome, -⟩ | ⟨e', w', hact, houtcome, hstep⟩
  · cases hx.symm.trans houtcome
  cases hx.symm.trans houtcome
  obtain ⟨key, slot, o, hsource, hfind, htaken, hconsumes, hunwinds⟩ :=
    HandOver.unwound_of_plan hp hact
  have hstep' : s' = ⟨w', State.remaining s.slots p⟩ := hstep
  have hclosed : World.Disturbed e w' → s.begun.IsClosed :=
    Step.isClosed_of_disturbed hp x.step_ne_process hupright.prepared hact
  have hr := HandOver.hasRole_of_taken htaken (hupright.fit.find? hfind)
  obtain ⟨δ, hturns⟩ := hupright.turns_of_unwound hp hact
  rw [hstep']
  refine ⟨key, slot, o, hsource, hfind, htaken, ?_, ?_, fun z => ?_⟩
  · rw [State.remaining, hconsumes]
    rfl
  · exact HandOver.undoes_of_unwinds (w := s.begun) hupright.sound hr hclosed hunwinds
  · exact (hturns.drops z).trans (Nat.zero_add _)

/-- The structure of a proxy is asked for after the start of shutdown. The handle goes, and the
proxy with it. -/
theorem handed_over_once_heldOver :
    let s := (State.initial {} (some ⟨true, true⟩)).after heldOver
    let s' := (s.step (.shared (.giveBack .client (some "p") "v"))).2
    s.world.store.IsLive 2 ∧ ¬ s'.world.store.IsLive 2 ∧ s'.slots = s.slots.without "p" := by
  intro s s'
  have hreachable := ((Reachable.initial {} (some ⟨true, true⟩)).after heldOver rfl).proceeds
  obtain ⟨key, slot, o, hkey, hfind, htaken, hslots, hgives, -⟩ :=
    handed_over_once (.giveBack .client) (some "p") "v" hreachable (e := .heldAtShutdown) rfl
  cases hkey
  cases hfind
  cases htaken
  obtain ⟨n, n', hn, hlive, hn', href, hlast⟩ := hgives.count hreachable.upright.sound ⟨_, rfl, rfl⟩
  cases hn
  refine ⟨⟨_, rfl, hlive⟩, ?_, hslots⟩
  rintro ⟨m, hm, hmlive⟩
  cases hm.symm.trans hn'
  have hpos := hlast.mp hmlive
  rw [href] at hpos
  exact absurd hpos (by decide)

/-- An owned object, when shutdown begins. -/
def ownedAtShutdown : List Step :=
  [.create (.ownedObject ⟨.client 7, none⟩) "a", .process .shutDown]

/-- It is taken to be given away, but the check of the start of shutdown unwinds first, and nobody
owns it any more. -/
theorem not_handed_over_once :
    ¬ ∀ s out (x : HandOver) source name e, Reachable State.Proceeds s out →
      (s.step (x.step source name)).1.outcome = .unwound e →
      ∃ key slot o, source = some key ∧ s.slots.find? key = some slot ∧ x.taken? slot = some o ∧
        s.world.store.GivesUp (s.step (x.step source name)).2.world.store o := by
  intro h
  have hreachable := ((Reachable.initial {} (some ⟨true, true⟩)).after ownedAtShutdown rfl).proceeds
  obtain ⟨key, slot, o, hkey, hfind, htaken, hgives⟩ :=
    h _ _ (.give .client) (some "a") "w" .heldAtShutdown hreachable rfl
  cases hkey
  cases hfind
  cases htaken
  cases hgives with
  | handle hr _ _ =>
    obtain ⟨n, hn, hrole⟩ := hr
    cases hn
    cases hrole
  | owner _ hdestroys => exact hdestroys.gone ⟨_, rfl, rfl⟩

end ObjectBoundary.Session
