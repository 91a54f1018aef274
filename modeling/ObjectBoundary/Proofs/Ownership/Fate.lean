import ObjectBoundary.Proofs.Ownership.Owners
import ObjectBoundary.Proofs.Session.Transfers
import ObjectBoundary.Proofs.Session.UsedUp

/-!
# What becomes of owned objects

An owned object is destroyed in the step that destroys its owner, and in no other. A wrapper that
owns an object goes with it when its function `del` is called, and without it when the object is
taken back. A wrapper that only borrows its object never decides over it.

* `State.Destroys`, `State.TakesBack`: what a step does to an owner.
* `State.Uses`, `State.Misses`: what a step does to wrappers that keep what they have.
* `Fate.owns_step`: who is not concerned by a step goes on to own what it owns.
* `State.Decides`, `decides`: what becomes of every owned object in a step.
-/

namespace ObjectBoundary.Session

open ObjectBoundary Act

variable {s : State} {x : Step} {out : Ledger} {k : Owner} {name source : String} {y o : Id}

/-! ## What steps do to owners -/

namespace State

/-- A step calls the function `del` of a structure. -/
def Deletes (s : State) (x : Step) (y : Id) : Prop :=
  ∃ source r, x = .struct (.call source "del" r) ∧ s.calleeAt source Layout.del r = some y

/-- A step destroys a proxy of a structure that can be deleted, which has not been taken out. -/
def DropsProxy (s : State) (x : Step) (y : Id) : Prop :=
  ∃ p, s.world.store.HasRole p .ownedObject ∧ s.world.store.IsLive p ∧
    s.world.store.below? p = some y ∧ s.world.store.isSet y Layout.del = true ∧
      ¬ (s.step x).2.world.store.IsLive p ∧ s.emptied x ≠ some p

/-- A step destroys an owner: it gives up what a slot holds or hands it to a class of proxies, which
destroys it in any case, or it deletes a wrapper. -/
def Destroys (s : State) (x : Step) : Owner → Prop
  | .slot name => x = .handle (.drop name) ∨ ∃ c made, x = .owned (.surrender c (some name) made)
  | .wrapper y => s.Deletes x y ∨ s.DropsProxy x y

/-- A step takes the object of a wrapper back, by a class that knows the wrapper. -/
def TakesBack (s : State) (x : Step) (y : Id) : Prop :=
  ∃ c source made n v, x = .owned (.takeBack c source made) ∧ s.slots.structAt source = some y ∧
    s.world.store.get? y = some n ∧ n.entity = .ownedWrapper v ∧ c.Recovers v.cls

end State

/-! ## The slots that a step is given -/

def HandleStep.names : HandleStep → List String
  | clone a _ | drop a | leak a _ | reclaim a _ | retain a _ | release a | upcast a _ _ => [a]
  | same a b => [a, b]
  | ask _ a | reportedTag a | value a | otherValue a | lookup a _ | describe a => [a]

def SharedStep.names : SharedStep → List String
  | wrap _ a _ | unwrap _ a _ | receive _ a _ | giveBack _ a _ => a.toList
  | inspect _ a | retainWrapper _ a | releaseWrapper _ a | target _ a => [a]

def OwnedStep.names : OwnedStep → List String
  | give _ a _ | lend _ a _ | takeBack _ a _ | borrow _ a => a.toList
  | adopt _ a _ | surrender _ a _ | reveal _ a _ => a.toList
  | loanStruct a _ | inspect _ a | takeTarget a _ => [a]

def StructStep.names : StructStep → List String
  | call a _ (.given b) => a :: b.toList
  | call a _ .itself | clear a _ | resize a _ | size a | object _ a => [a]

/-- The names of the slots that a step is given. -/
def Step.names : Step → List String
  | create _ _ | process _ => []
  | handle step => step.names
  | shared step => step.names
  | owned step => step.names
  | struct step => step.names
  | device _ source => [source]

/-- Whether a slot leads to a structure: it holds the structure, or an object through which the
structure is reached. -/
def Slot.Reaches (st : Store) (y : Id) : Slot → Prop
  | .struct x => x = y
  | .loan x => x = y
  | .owner p _ => y ∈ st.chain p
  | _ => False

namespace State

/-- A step is given a slot that leads to a structure. -/
def Uses (s : State) (x : Step) (y : Id) : Prop :=
  ∃ name ∈ x.names, ∃ slot, s.slots.find? name = some slot ∧ slot.Reaches s.world.store y

/-- A step asks a structure for its object, but its class does not know the structure, or it only
looks at the object. -/
def Misses (s : State) : Step → Prop
  | .owned (.takeBack c source _) => ∀ y n v, s.slots.structAt source = some y →
      s.world.store.get? y = some n → n.entity = .ownedWrapper v → ¬ c.Recovers v.cls
  | .owned (.borrow _ _) => True
  | _ => False

end State

/-- A step that uses an owner up takes its object elsewhere or destroys it. -/
theorem UsesUp.owner {view : OwnedInterface} (h : UsesUp name (.owner o view) x) :
    x.names = [name] ∧ (s.gone x = [] ∨ s.Destroys x (.slot name)) := by
  cases h with
  | dropped _ => exact ⟨rfl, Or.inr (Or.inl rfl)⟩
  | upcast _ | given => exact ⟨rfl, Or.inl rfl⟩
  | surrendered => exact ⟨rfl, Or.inr (Or.inr ⟨_, _, rfl⟩)⟩

/-! ## Wrappers -/

namespace State

/-- A step that empties something destroys nothing else. -/
theorem deleted_of_emptied (h : s.emptied x = some y) : s.deleted x = [] := by
  cases x with
  | owned step =>
    cases step with
    | surrender c source made =>
      obtain ⟨howned, hempties⟩ := Option.filter_eq_some_iff.mp h
      rw [deleted, struck, howned, Option.filter_some, hempties]
      rfl
    | takeBack => rfl
    | _ => cases h
  | _ => cases h

theorem mem_deleted_iff (hl : s.world.store.Linked) :
    y ∈ s.deleted x ↔ s.struck x = some y ∨ ∃ z n, z ∈ s.deleted x ∧
      s.world.store.get? z = some n ∧ s.world.store.leadsOn n.entity = true ∧
        n.entity.below? = some y := by
  unfold deleted
  cases s.struck x with
  | none => exact ⟨nofun, fun h => h.elim nofun fun ⟨_, _, hz, _⟩ => nomatch hz⟩
  | some r =>
    apply (Store.mem_doomed_chain hl).trans
    rw [Option.some_inj, eq_comm]
    exact Iff.rfl

end State

theorem hasRole_of_owns (h : s.Owns (.wrapper y) o) :
    s.world.store.HasRole y .ownedStructure := by
  obtain ⟨n, hn, -, hkeeps⟩ := h
  obtain ⟨v, he, -⟩ := Entity.keeps?_eq_some.mp hkeeps
  exact ⟨n, hn, by rw [he]; rfl⟩

section Wrappers

variable (hb : Balanced s out)
include hb

/-- What an owner slot holds is no structure. -/
theorem hasRole_of_ownedAt {source : Option String} (h : s.slots.ownedAt source = some y) :
    s.world.store.HasRole y .ownedObject := by
  obtain ⟨slot, hslot, howned⟩ := Option.bind_eq_some_iff.mp h
  obtain ⟨source', -, hfind⟩ := Option.bind_eq_some_iff.mp hslot
  obtain ⟨view, rfl⟩ := owned?_eq_some howned
  exact hb.fit.find? hfind

variable (h : s.Owns (.wrapper y) o)
include h

/-- A wrapper that owns its object is struck only by its function `del`. -/
theorem struck_wrapper_iff : s.struck x = some y ↔ s.Deletes x y := by
  have hnot (hobject : s.world.store.HasRole y .ownedObject) : False := by
    cases (hasRole_of_owns h).unique hobject
  constructor
  · intro hr
    cases x with
    | handle step =>
      cases step with
      | drop source =>
        obtain ⟨slot, hfind, hgiven⟩ := Option.bind_eq_some_iff.mp hr
        have hfits := hb.fit.find? hfind
        cases slot with
        | owner o' view =>
          cases hgiven
          exact (hnot hfits).elim
        | loan x =>
          cases hgiven
          obtain ⟨n, hn, -, hkeeps⟩ := h
          obtain ⟨v, he, howns, -⟩ := Entity.keeps?_eq_some.mp hkeeps
          obtain ⟨m, v', hm, he', hv'⟩ := hfits
          cases hn.symm.trans hm
          cases he.symm.trans he'
          cases howns.symm.trans hv'
        | _ => cases hgiven
      | _ => cases hr
    | owned step =>
      cases step with
      | surrender c source made =>
        exact (hnot (hasRole_of_ownedAt hb (Option.filter_eq_some_iff.mp hr).1)).elim
      | _ => cases hr
    | struct step =>
      cases step with
      | call source member r =>
        obtain ⟨rfl, hcallee⟩ := Option.ite_none_right_eq_some.mp hr
        exact ⟨source, r, rfl, hcallee⟩
      | _ => cases hr
    | _ => cases hr
  · rintro ⟨source, r, rfl, hcallee⟩
    rw [State.struck, if_pos rfl, hcallee]

/-- A wrapper that owns its object is emptied if the object is taken back. -/
theorem emptied_wrapper_iff : s.emptied x = some y ↔ s.TakesBack x y := by
  obtain ⟨n, hn, hlive, hkeeps⟩ := id h
  obtain ⟨v, he, howns, hobject⟩ := Entity.keeps?_eq_some.mp hkeeps
  constructor
  · intro hy
    cases x with
    | owned step =>
      cases step with
      | takeBack c source made =>
        obtain ⟨hstruct, hempties⟩ := Option.filter_eq_some_iff.mp hy
        rw [OwnedClass.empties, hn, Option.any_some, he, OwnedClass.retrieves,
          Bool.and_eq_true, decide_eq_true_eq] at hempties
        exact ⟨c, source, made, n, v, rfl, hstruct, hn, he, hempties.2⟩
      | surrender c source made =>
        have hrole := hasRole_of_ownedAt hb (Option.filter_eq_some_iff.mp hy).1
        cases hrole.unique (hasRole_of_owns h)
      | _ => cases hy
    | _ => cases hy
  · rintro ⟨c, source, made, m, v', rfl, hstruct, hm, he', hc⟩
    cases hn.symm.trans hm
    cases he.symm.trans he'
    refine Option.filter_eq_some_iff.mpr ⟨hstruct, ?_⟩
    rw [OwnedClass.empties, hn, Option.any_some, he, OwnedClass.retrieves, howns, Bool.true_and]
    exact decide_eq_true hc

/-- Its object goes with it. -/
theorem mem_deleted_of_owns (hy : y ∈ s.deleted x) : o ∈ s.deleted x := by
  obtain ⟨n, hn, -, hkeeps⟩ := h
  obtain ⟨v, he, howns, hobject⟩ := Entity.keeps?_eq_some.mp hkeeps
  refine (State.mem_deleted_iff hb.sound.linked).mpr (Or.inr ⟨y, n, hy, hn, ?_, ?_⟩)
  · rw [he, Store.leadsOn, howns, hobject]
    rfl
  · rw [he]
    exact hobject

end Wrappers

/-! ## Owners that stay -/

section Fate

variable (hb : Balanced s out) (hk : Kept s) (hx : s.Undisturbed x)
include hb hk hx

/-- What ceases to exist by a step is as foreseen. -/
theorem isLive_step_iff {n : Node} (hn : s.world.store.get? y = some n) (hlive : n.live = true)
    (ho : n.entity.isOwned = true) : (s.step x).2.world.store.IsLive y ↔ y ∉ s.gone x := by
  obtain ⟨-, δ, hcustody⟩ := hb.kept_step hk hx
  obtain ⟨_, hmoved⟩ := hb.moved hx
  exact hcustody.isLive_iff hmoved.turns.continues hn hlive ho

theorem isLive_object_step_iff (h : s.Owns k o) :
    (s.step x).2.world.store.IsLive o ↔ o ∉ s.gone x := by
  obtain ⟨⟨n, hn, hlive⟩, m, hm, hrole⟩ :=
    Store.presence_eq_one_iff.mp (hk.presence_of_owns hb h)
  cases hn.symm.trans hm
  exact isLive_step_iff hb hk hx hn hlive (Entity.isOwned_of_role hrole)

/-- What is destroyed with all that it owns is not emptied. -/
theorem mem_deleted_object_iff {n : Node} (hn : s.world.store.get? y = some n)
    (hlive : n.live = true) (ho : n.entity.isOwned = true) :
    y ∈ s.deleted x ↔ ¬ (s.step x).2.world.store.IsLive y ∧ s.emptied x ≠ some y := by
  rw [isLive_step_iff hb hk hx hn hlive ho, not_not, State.gone, List.mem_append,
    Option.mem_toList]
  constructor
  · intro hy
    refine ⟨Or.inl hy, fun hempty => ?_⟩
    rw [State.deleted_of_emptied hempty] at hy
    cases hy
  · rintro ⟨hy, hnot⟩
    exact hy.resolve_right hnot

/-- A wrapper that owns its object is destroyed with it if its function `del` is called, directly or
by a proxy that is destroyed. -/
theorem mem_deleted_wrapper_iff (h : s.Owns (.wrapper y) o) :
    y ∈ s.deleted x ↔ s.Destroys x (.wrapper y) := by
  have hl := hb.sound.linked
  rw [State.mem_deleted_iff hl, struck_wrapper_iff hb h]
  apply or_congr_right
  constructor
  · rintro ⟨z, ⟨label, e, live⟩, hz, hm, hlead, hbelow⟩
    have hlink : e.linkRole = .ownedStructure :=
      (hl z _ y hm hbelow).2.unique (hasRole_of_owns h)
    cases e with
    | ownedProxy q =>
      have htarget : q.target = some y := hbelow
      rw [Store.leadsOn, htarget, Option.any_some] at hlead
      obtain ⟨-, δ, hcustody⟩ := hb.kept_step hk hx
      obtain ⟨m, hm', hlive⟩ := hcustody.gone z (List.mem_append_left _ hz)
      cases hm.symm.trans hm'
      obtain ⟨hdead, hnot⟩ := (mem_deleted_object_iff hb hk hx hm hlive rfl).mp hz
      exact ⟨z, ⟨_, hm, rfl⟩, ⟨_, hm, hlive⟩, (Store.below?_eq_some hm).trans htarget, hlead, hdead,
        hnot⟩
    | _ => cases hlink
  · rintro ⟨p, ⟨⟨label, e, live⟩, hm, hrole⟩, ⟨_, hm', hlive⟩, hbelow, hset, hdead, hnot⟩
    cases hm.symm.trans hm'
    have hp := (mem_deleted_object_iff hb hk hx hm hlive (Entity.isOwned_of_role hrole)).mpr
      ⟨hdead, hnot⟩
    rw [Store.below?_eq_some hm] at hbelow
    refine ⟨p, _, hp, hm, ?_, hbelow⟩
    cases e with
    | ownedProxy q =>
      have htarget : q.target = some y := hbelow
      rw [Store.leadsOn, htarget, Option.any_some, hset]
    | ownedObject o' => cases hbelow
    | _ => cases hrole

/-- It ceases to exist in no other way. -/
theorem mem_gone_wrapper_iff (h : s.Owns (.wrapper y) o) :
    y ∈ s.gone x ↔ s.Destroys x (.wrapper y) ∨ s.TakesBack x y := by
  rw [State.gone, List.mem_append, mem_deleted_wrapper_iff hb hk hx h, ← emptied_wrapper_iff hb h,
    Option.mem_toList]

/-- What is owned after a step exists after it. -/
theorem isLive_of_owns_step (h : (s.step x).2.Owns k o) : (s.step x).2.world.store.IsLive o :=
  (Store.presence_eq_one_iff.mp
    ((hb.kept_step hk hx).1.presence_of_owns (hb.step hx) h)).1

/-! ## Slots -/

/-- An object that a slot owns is destroyed by the step that destroys the slot. -/
theorem destroyed_slot (h : s.Owns (.slot name) o) :
    ¬ (s.step x).2.world.store.IsLive o ↔ s.Destroys x (.slot name) := by
  have hlive := isLive_object_step_iff hb hk hx h
  obtain ⟨view, hfind⟩ := h
  rw [hlive, not_not]
  constructor
  · intro hgone
    by_contra hnot
    have hstays : (s.step x).2.Owns (.slot name) o := by
      refine ⟨view, State.find?_step hfind fun huses => ?_⟩
      have hnone := huses.owner.2.resolve_right hnot
      rw [hnone] at hgone
      cases hgone
    exact hlive.mp (isLive_of_owns_step hb hk hx hstays) hgone
  · have howned : s.slots.ownedAt (some name) = some o := Slots.ownedAt_of_find? hfind
    have hself : o ∈ s.world.store.doomed (s.world.store.chain o) := List.mem_cons_self
    rintro (rfl | ⟨c, made, rfl⟩)
    · refine List.mem_append_left _ ?_
      rw [State.deleted, State.struck, hfind]
      exact hself
    · rw [State.gone, State.deleted, State.struck, State.emptied, howned, Option.filter_some,
        Option.filter_some]
      cases c.empties s.world.store o with
      | true => exact List.mem_singleton_self o
      | false => exact List.mem_append_left _ hself

/-- An object that is taken back stays and is owned by a slot. -/
theorem takenBack_wrapper (h : s.Owns (.wrapper y) o) (hback : s.TakesBack x y) :
    (s.step x).2.world.store.IsLive o ∧ ∃ name, (s.step x).2.Owns (.slot name) o := by
  suffices howns : ∃ name, (s.step x).2.Owns (.slot name) o by
    obtain ⟨name, howns⟩ := howns
    exact ⟨isLive_of_owns_step hb hk hx howns, name, howns⟩
  obtain ⟨⟨label, e, live⟩, hn, hlive, hkeeps⟩ := h
  obtain ⟨v, he, howns, hobject⟩ := Entity.keeps?_eq_some.mp hkeeps
  obtain ⟨c, source, made, n, v', rfl, hstruct, hn', he', hc⟩ := hback
  cases hn.symm.trans hn'
  cases he
  cases he'
  obtain ⟨slot, hslot, hstruct⟩ := Option.bind_eq_some_iff.mp hstruct
  obtain ⟨source, rfl, hfind⟩ := Option.bind_eq_some_iff.mp hslot
  cases slot with
  | struct y =>
    cases hstruct
    obtain ⟨p, hp, -, hcases⟩ := State.proceeds_cases hx.1
    cases (plan_takeBack hfind c made).symm.trans hp
    have hends := OwnedClass.ends_takeBack_object (w := s.begun) hn hc howns
    have hheld : Ends (c.takeBack y >>= holding fun o => .owner o c.interface) s.begun
        (fun r _ => r.2 = .owner o c.interface) World.Disturbed := by
      apply ends_bind hends
      intro a w' ha
      rw [ha, hobject]
      exact ends_holding fun _ => rfl
    rcases hcases with ⟨value, slot, w', hact, -, hstep⟩ | ⟨failure, w', hact, houtcome, hstep⟩
    · cases ends_of_done hheld hact
      refine ⟨made, c.interface, ?_⟩
      rw [hstep]
      exact (Slots.find?_add _ _ _ _).trans (if_pos rfl)
    · refine absurd ?_ (hx.2 failure houtcome)
      rw [hstep]
      exact ends_of_unwound hheld hact
  | _ => cases hstruct

variable (hvacant : ∀ z, ¬ s.world.store.IsVacant z)
include hvacant

/-- A wrapper that goes on to exist goes on to own its object. -/
theorem owns_wrapper_step (h : s.Owns (.wrapper y) o) (hy : y ∉ s.gone x) :
    (s.step x).2.Owns (.wrapper y) o := by
  obtain ⟨⟨label, e, live⟩, hn, hlive, hkeeps⟩ := h
  obtain ⟨v, he, howns, hobject⟩ := Entity.keeps?_eq_some.mp hkeeps
  cases he
  obtain ⟨n', hn', hlive'⟩ := (isLive_step_iff hb hk hx hn hlive rfl).mpr hy
  obtain ⟨_, hmoved⟩ := hb.moved hx
  obtain ⟨m, hm, hcont⟩ := hmoved.turns.continues y _ hn
  cases hn'.symm.trans hm
  obtain ⟨label', e', live'⟩ := n'
  cases e' with
  | ownedWrapper v' =>
    obtain ⟨-, howns', hobject', -⟩ := hcont.entity
    refine ⟨_, hn', hlive', Entity.keeps?_eq_some.mpr ⟨v', rfl, howns'.trans howns, ?_⟩⟩
    rcases hobject' with hsame | hnone
    · exact hsame.trans hobject
    · have hisVacant : (s.step x).2.world.store.IsVacant y :=
        ⟨_, hn', hlive', congrArg Option.isNone hnone⟩
      exact (hvacant y (s.vacant_after [x] hisVacant)).elim
  | _ => exact hcont.entity.elim

/-- An object that a wrapper owns is destroyed by the step that destroys the wrapper. -/
theorem destroyed_wrapper (h : s.Owns (.wrapper y) o) :
    ¬ (s.step x).2.world.store.IsLive o ↔ s.Destroys x (.wrapper y) := by
  have hlive := isLive_object_step_iff hb hk hx h
  constructor
  · intro hdead
    by_contra hnot
    by_cases hy : y ∈ s.gone x
    · have hback := ((mem_gone_wrapper_iff hb hk hx h).mp hy).resolve_left hnot
      exact hdead (takenBack_wrapper hb hk hx h hback).1
    · exact hdead (isLive_of_owns_step hb hk hx (owns_wrapper_step hb hk hx hvacant h hy))
  · intro hd
    rw [hlive, not_not]
    have hy := (mem_deleted_wrapper_iff hb hk hx h).mpr hd
    exact List.mem_append_left _ (mem_deleted_of_owns hb h hy)

/-! ## Wrappers that only borrow -/

/-- A wrapper has an object, but does not own it. -/
def State.Borrows (s : State) (y o : Id) : Prop :=
  ∃ n v, s.world.store.get? y = some n ∧ n.entity = .ownedWrapper v ∧ v.owns = false ∧
    v.object = some o

omit hx hvacant in
/-- What a step destroys that is given a borrowing wrapper lies on one chain with it. -/
theorem mem_chain_of_struck {r : Id} (hy : s.Borrows y o) (hu : s.Uses x y)
    (hr : s.struck x = some r) : y ∈ s.world.store.chain r := by
  obtain ⟨n, v, hn, he, howns, -⟩ := hy
  obtain ⟨name, hname, slot, hfind, hreaches⟩ := hu
  cases x with
  | handle step =>
    cases step with
    | drop source =>
      cases List.mem_singleton.mp hname
      rw [State.struck, hfind, Option.bind_some] at hr
      cases slot with
      | owner o' view =>
        cases hr
        exact hreaches
      | loan z =>
        cases hr
        cases hreaches
        exact Store.mem_chain_self hb.sound.earlier y
      | _ => cases hr
    | _ => cases hr
  | owned step =>
    cases step with
    | surrender c source made =>
      cases Option.mem_toList.mp hname
      have howned := (Option.filter_eq_some_iff.mp hr).1
      rw [Slots.ownedAt_of_find? hfind] at howned
      obtain ⟨view, rfl⟩ := owned?_eq_some howned
      exact hreaches
    | _ => cases hr
  | struct step =>
    cases step with
    | call source member receiver =>
      obtain ⟨-, hcallee⟩ := Option.ite_none_right_eq_some.mp hr
      obtain ⟨a, ha, hcallee⟩ := Option.bind_eq_some_iff.mp hcallee
      obtain ⟨hset, hcallee⟩ := Option.ite_none_right_eq_some.mp hcallee
      have hreceiver := (Option.filter_eq_some_iff.mp hcallee).1
      -- A wrapper that owns nothing has no function `del`.
      have hne : a ≠ y := by
        rintro rfl
        have hguarded := hk.guarded a n hn
        rw [he] at hguarded
        change (v.owns || !v.struct.isSet Layout.del) = true at hguarded
        rw [howns, Bool.false_or, Bool.not_eq_true'] at hguarded
        rw [Store.isSet_eq hn (by rw [he]; rfl), hguarded] at hset
        cases hset
      have hsource (h : s.slots.find? source = some slot) : False := by
        rw [Slots.structAt, Option.bind_some, h] at ha
        cases slot with
        | struct z =>
          cases ha
          exact hne hreaches
        | _ => cases ha
      cases receiver with
      | itself =>
        cases List.mem_singleton.mp hname
        exact (hsource hfind).elim
      | given given =>
        rcases List.mem_cons.mp hname with rfl | hname
        · exact (hsource hfind).elim
        · cases Option.mem_toList.mp hname
          dsimp only at hreceiver
          rw [Slots.structAt, Option.bind_some, hfind] at hreceiver
          cases slot with
          | struct z =>
            cases hreceiver
            cases hreaches
            exact Store.mem_chain_self hb.sound.earlier y
          | _ => cases hreceiver
    | _ => cases hr
  | _ => cases hr

/-- Whatever is done to a wrapper that only borrows its object, the object keeps its owner. -/
theorem owns_step_of_uses (hy : s.Borrows y o) (hu : s.Uses x y) (h : s.Owns k o) :
    (s.step x).2.Owns k o := by
  have hearlier := hb.sound.earlier
  obtain ⟨n, v, hn, he, howns, hobject⟩ := id hy
  have hbelow : s.world.store.below? y = some o := by
    rw [Store.below?_eq_some hn, he]
    exact hobject
  cases k with
  | slot name =>
    obtain ⟨view, hfind⟩ := h
    refine ⟨view, State.find?_step hfind fun huses => ?_⟩
    obtain ⟨name', hname, slot, hfind', hreaches⟩ := hu
    rw [(huses.owner (s := s)).1] at hname
    cases List.mem_singleton.mp hname
    cases hfind.symm.trans hfind'
    exact absurd (Store.chain_le hearlier o y hreaches) (Nat.not_le_of_lt (hearlier y o hbelow))
  | wrapper z =>
    apply owns_wrapper_step hb hk hx hvacant h
    have hne : y ≠ z := by
      rintro rfl
      obtain ⟨m, hm, -, hkeeps⟩ := h
      obtain ⟨v', he', howns', -⟩ := Entity.keeps?_eq_some.mp hkeeps
      cases hn.symm.trans hm
      cases he.symm.trans he'
      cases howns.symm.trans howns'
    rw [State.gone, List.mem_append, Option.mem_toList, not_or]
    constructor
    · intro hz
      unfold State.deleted at hz
      cases hr : s.struck x with
      | none => rw [hr] at hz; cases hz
      | some r =>
        rw [hr] at hz
        have hzbelow : s.world.store.below? z = some o := by
          obtain ⟨m, hm, -, hkeeps⟩ := h
          obtain ⟨v', he', -, hobject'⟩ := Entity.keeps?_eq_some.mp hkeeps
          rw [Store.below?_eq_some hm, he']
          exact hobject'
        exact hne (Store.eq_of_mem_chain hearlier (mem_chain_of_struck hb hk hy hu hr)
          (Store.doomed_subset _ _ z hz) hbelow hzbelow)
    · intro hz
      obtain ⟨c, source, made, _, _, rfl, hstruct, -⟩ := (emptied_wrapper_iff hb h).mp hz
      obtain ⟨name, hname, slot, hfind, hreaches⟩ := hu
      cases Option.mem_toList.mp hname
      rw [Slots.structAt, Option.bind_some, hfind] at hstruct
      cases slot with
      | struct x =>
        cases hstruct
        exact hne hreaches.symm
      | _ => cases hstruct

/-- Whoever is asked for an object by a class that does not know it keeps it. -/
theorem owns_step_of_misses (hm : s.Misses x) (h : s.Owns k o) : (s.step x).2.Owns k o := by
  cases k with
  | slot name =>
    obtain ⟨view, hfind⟩ := h
    refine ⟨view, State.find?_step hfind fun huses => ?_⟩
    cases huses <;> exact hm
  | wrapper y =>
    apply owns_wrapper_step hb hk hx hvacant h
    have hdeleted : s.deleted x = [] := by
      cases x with
      | owned step =>
        cases step with
        | takeBack c source made | borrow c source => rfl
        | _ => exact hm.elim
      | _ => exact hm.elim
    rw [State.gone, hdeleted, List.nil_append, Option.mem_toList]
    intro hy
    obtain ⟨c, source, made, n, v, rfl, hstruct, hn, he, hc⟩ := (emptied_wrapper_iff hb h).mp hy
    exact hm y n v hstruct hn he hc

/-! ## All owned objects -/

/-- What becomes of owned objects and of wrappers in a step. -/
structure State.Decides (s : State) (x : Step) : Prop where
  /-- An object is destroyed by the step that destroys its owner, and by no other. -/
  destroyed : ∀ k o, s.Owns k o →
    (¬ (s.step x).2.world.store.IsLive o ↔ s.Destroys x k)
  /-- A wrapper that owns its object ceases to exist if it is deleted or gives the object back. -/
  freed : ∀ y o, s.Owns (.wrapper y) o →
    (¬ (s.step x).2.world.store.IsLive y ↔ s.Destroys x (.wrapper y) ∨ s.TakesBack x y)
  /-- An object that is taken back stays. -/
  takenBack : ∀ y o, s.Owns (.wrapper y) o → s.TakesBack x y →
    (s.step x).2.world.store.IsLive o ∧ ∃ name, (s.step x).2.Owns (.slot name) o
  /-- Whatever is done to a wrapper that only borrows its object, the object keeps its owner. -/
  borrowed : ∀ y o k, s.Borrows y o → s.Uses x y → s.Owns k o → (s.step x).2.Owns k o
  /-- Whoever is asked for an object by a class that does not know it keeps it. -/
  missed : s.Misses x → ∀ k o, s.Owns k o → (s.step x).2.Owns k o

theorem decides : s.Decides x where
  destroyed k o h := by
    cases k with
    | slot name => exact destroyed_slot hb hk hx h
    | wrapper y => exact destroyed_wrapper hb hk hx hvacant h
  freed y o h := by
    obtain ⟨n, hn, hlive, hkeeps⟩ := id h
    obtain ⟨v, he, -⟩ := Entity.keeps?_eq_some.mp hkeeps
    have ho : n.entity.isOwned = true := by
      rw [he]
      rfl
    rw [isLive_step_iff hb hk hx hn hlive ho, not_not, mem_gone_wrapper_iff hb hk hx h]
  takenBack y o h hback := takenBack_wrapper hb hk hx h hback
  borrowed y o k hy hu h := owns_step_of_uses hb hk hx hvacant hy hu h
  missed hm k o h := owns_step_of_misses hb hk hx hvacant hm h

end Fate

end ObjectBoundary.Session
