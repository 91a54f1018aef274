import ObjectBoundary.Proofs.Session.Chains

/-!
# References that are due

Every reference that is owned is due to be given up some day: that of each handle and of each
leaked reference, and those to structures that the ledger tells of. Giving one up changes nothing
about the others.

* `Due`, `State.due`: what is due, and how often.
* `State.Settles`: the steps that give up what is due.
* `State.Orderly`: a session in which everything can be given up.
* `State.Settles.spec`: such a step gives up a reference.
* `State.due_of_slots`, `State.Settles.of_slots`: the others are still due, and can be given up.
-/

namespace ObjectBoundary.Session

open ObjectBoundary

variable {s : State} {x : Step} {out : Ledger} {z : Id}

/-! ## What is due -/

/-- A reference that is due to be given up: the one that a slot holds, or one to a structure that
nobody on this side owns. -/
inductive Due where
  | held (name : String)
  | handed (z : Id)
deriving DecidableEq

/-- How many references are due. -/
def State.due (s : State) (out : Ledger) : Due → Int
  | .held name => if ((s.slots.find? name).bind Slot.object?).isSome then 1 else 0
  | .handed z => out z

theorem Due.count_cons (d d' : Due) (ds : List Due) :
    ((d :: ds).count d' : Int) = ds.count d' + if d' = d then 1 else 0 := by
  rw [List.count_cons]
  by_cases heq : d' = d
  · simp [heq]
  · simp [heq, Ne.symm heq]

/-- A step that gives up what is due. -/
inductive State.Settles (s : State) : Step → Due → Prop
  | drop {source : String} {z : Id} {view : SharedInterface} :
    s.slots.find? source = some (.handle z view) → s.Settles (.handle (.drop source)) (.held source)
  | release {source : String} {z : Id} {view : SharedInterface} :
    s.slots.find? source = some (.leaked z view) →
      s.Settles (.handle (.release source)) (.held source)
  | call {source : String} {z : Id} : s.slots.find? source = some (.struct z) →
      s.Settles (.struct (.call source "release" .itself)) (.handed z)
  | wrapper {c : SharedClass} {source : String} {z : Id} :
    s.slots.find? source = some (.struct z) → s.world.store.wrapperTag? z = some c.tag →
      s.Settles (.shared (.releaseWrapper c source)) (.handed z)

/-- Steps that give up all that is due, in some order. -/
def State.SettlesAll (s : State) (out : Ledger) (xs : List Step) : Prop :=
  ∃ ds, List.Forall₂ s.Settles xs ds ∧ ∀ d, (ds.count d : Int) = s.due out d

/-- The slots that are left once something was settled. -/
def Due.slots (d : Due) (slots : Slots) : Slots :=
  match d with
  | .held name => slots.without name
  | .handed _ => slots

/-- What settling enters into the ledger. -/
def Due.entry : Due → Ledger
  | .held _ => 0
  | .handed z => credit (some z) (-1)

/-! ## The invariant -/

/-- A session in which everything can be settled. -/
structure State.Orderly (s : State) (out : Ledger) : Prop where
  balanced : Balanced s out
  isOpen : s.world.IsOpen
  accountable : ∀ z, s.world.store.Accountable z
  nonneg : ∀ z, 0 ≤ out z

namespace State

theorem Orderly.intact (h : s.Orderly out) (z : Id) : s.Intact out z :=
  fun y _ => ⟨h.accountable y, h.nonneg y⟩

/-- The structure that a slot names. -/
theorem structAt_of_find? {source : String} (h : s.slots.find? source = some (.struct z)) :
    s.slots.structAt (some source) = some z := by
  simp [Slots.structAt, h, Slot.struct?]

theorem calleeAt_itself {source : String} {position : Nat}
    (hp : position = Layout.addRef ∨ position = Layout.release)
    (hsource : s.slots.find? source = some (.struct z))
    (hr : s.world.store.HasRole z .sharedStructure) (ha : s.world.store.Accountable z) :
    s.calleeAt source position .itself = some z := by
  have hset : s.world.store.isSet z position = true := by
    by_contra hset
    rw [Bool.not_eq_true] at hset
    exact Store.not_accountable_of_not_isSet hp hset hr ha
  unfold calleeAt
  rw [structAt_of_find? hsource]
  show s.world.store.callee? z position (some z) = some z
  simp [Store.callee?, hset]

theorem wrapperAt_of_find? {c : SharedClass} {source : String}
    (hsource : s.slots.find? source = some (.struct z))
    (ht : s.world.store.wrapperTag? z = some c.tag) : s.wrapperAt c source = some z := by
  unfold wrapperAt
  rw [structAt_of_find? hsource]
  simp [ht]

/-- What is due is given up by such a step. -/
theorem Settles.spec {d : Due} (h : s.Orderly out) (hx : s.Settles x d) (hd : 1 ≤ s.due out d) :
    ∃ z, s.Gives x z ∧ (s.isDone x = true →
      (s.step x).2.slots = d.slots s.slots ∧ s.entry x = d.entry) := by
  have hstructure {z : Id} (hz : 1 ≤ out z) :
      s.world.store.HasRole z .sharedStructure ∧ 1 ≤ s.world.store.references z := by
    have hr := h.balanced.entered z (by omega)
    have href := h.balanced.references_structure hr (h.accountable z)
    exact ⟨hr, by omega⟩
  cases hx with
  | drop hsource =>
    refine ⟨_, .drop hsource, fun hdone => ⟨?_, entry_of_isDone hdone⟩⟩
    exact slots_of_isDone (plan_drop hsource) rfl hdone
  | release hsource =>
    refine ⟨_, .release hsource, fun hdone => ⟨?_, entry_of_isDone hdone⟩⟩
    exact slots_of_isDone (plan_release hsource) rfl hdone
  | @call source z hsource =>
    obtain ⟨hr, href⟩ := hstructure hd
    refine ⟨z, .call hsource hr href, fun hdone => ⟨?_, ?_⟩⟩
    · exact slots_of_isDone (plan_call hsource "release") rfl hdone
    · rw [entry_of_isDone hdone]
      have hcallee := calleeAt_itself (Or.inr rfl) hsource hr (h.accountable z)
      simp [Step.handed, hcallee, Due.entry]
  | @wrapper c source z hsource htag =>
    obtain ⟨hr, href⟩ := hstructure hd
    refine ⟨z, .wrapper hsource htag href, fun hdone => ⟨?_, ?_⟩⟩
    · exact slots_of_isDone (plan_releaseWrapper hsource c) rfl hdone
    · rw [entry_of_isDone hdone]
      show credit (s.wrapperAt c source) (-1) = _
      rw [wrapperAt_of_find? hsource htag]
      rfl

/-! ## One step -/

section Left

variable {s' : State} {d d' : Due} (hslots : s'.slots = d.slots s.slots) (hd : 1 ≤ s.due out d)
include hslots

/-- Slots other than the one that is settled stay. -/
theorem find?_of_slots {source : String} {slot : Slot} (hf : s.slots.find? source = some slot)
    (hne : d ≠ .held source) : s'.slots.find? source = some slot := by
  rw [hslots]
  cases d with
  | held name =>
    have hname : source ≠ name := fun heq => hne (congrArg Due.held heq.symm)
    rw [Due.slots, Slots.find?_without, if_neg hname, hf]
  | handed z => exact hf

include hd

/-- Just what is settled is no longer due. -/
theorem due_of_slots (d' : Due) :
    s'.due (out + d.entry) d' = s.due out d' - if d' = d then 1 else 0 := by
  cases d with
  | held name =>
    cases d' with
    | held name' =>
      simp only [due, hslots, Due.slots, Slots.find?_without, Due.held.injEq] at hd ⊢
      by_cases hname : name' = name
      · subst hname
        split at hd
        · simp [*]
        · omega
      · simp [hname]
    | handed z => simp [due, Due.entry]
  | handed z =>
    cases d' with
    | held name' => simp [due, hslots, Due.slots]
    | handed z' =>
      by_cases hz : z' = z
      · simp [due, Due.entry, hz, credit, Int.sub_eq_add_neg]
      · simp [due, Due.entry, hz, credit, Ne.symm hz]

/-- What else was to be settled can still be. -/
theorem Settles.of_slots (hc : s.world.store.Continues s'.world.store) (hx : s.Settles x d')
    (hd' : 1 ≤ s'.due (out + d.entry) d') : s'.Settles x d' := by
  rw [due_of_slots hslots hd] at hd'
  have hheld {source : String} (hdue : s.due out (.held source) ≤ 1)
      (heq : d' = .held source) : d ≠ .held source := by
    intro heq
    subst heq
    rw [heq, if_pos rfl] at hd'
    omega
  have hle (source : String) : s.due out (.held source) ≤ 1 := by
    show (if ((s.slots.find? source).bind Slot.object?).isSome then (1 : Int) else 0) ≤ 1
    split <;> omega
  have hstruct {source : String} {z : Id} (hf : s.slots.find? source = some (.struct z)) :
      d ≠ .held source := by
    rintro rfl
    simp [due, hf, Slot.object?] at hd
  cases hx with
  | drop hsource => exact .drop (find?_of_slots hslots hsource (hheld (hle _) rfl))
  | release hsource => exact .release (find?_of_slots hslots hsource (hheld (hle _) rfl))
  | call hsource => exact .call (find?_of_slots hslots hsource (hstruct hsource))
  | wrapper hsource htag =>
    exact .wrapper (find?_of_slots hslots hsource (hstruct hsource)) (hc.wrapperTag? htag)

/-- What follows can still be settled, if no more of it is due than was. -/
theorem Settles.forall_of_slots (hc : s.world.store.Continues s'.world.store) {xs : List Step}
    {ds : List Due} (hxs : List.Forall₂ s.Settles xs ds)
    (hds : ∀ d', (ds.count d' : Int) ≤ s'.due (out + d.entry) d') :
    List.Forall₂ s'.Settles xs ds := by
  rw [List.forall₂_iff_zip] at hxs ⊢
  obtain ⟨hlength, hxs⟩ := hxs
  refine ⟨hlength, ?_⟩
  intro x d' hmem
  apply (hxs hmem).of_slots hslots hd hc
  have hpos := List.count_pos_iff.mpr (List.of_mem_zip hmem).2
  have hle := hds d'
  omega

end Left

end State

end ObjectBoundary.Session
