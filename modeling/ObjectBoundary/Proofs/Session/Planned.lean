import ObjectBoundary.Proofs.Session.Ledger

/-!
# How steps are planned

A step reads its arguments from the slots and is planned from what they hold. Each kind of steps
has one relation that tells all plans there are, with what the arguments hold. Whatever is proved
of plans is proved by cases on it.

* `HandleStep.Planned`, `SharedStep.Planned`, `OwnedStep.Planned`, `StructStep.Planned`: the plans.
* `HandleStep.planned` and its like: a step that has a plan is planned so.
-/

namespace ObjectBoundary.Session

open ObjectBoundary

variable {slots : Slots} {p : Plan}

/-! ## What arguments hold -/

theorem ok_of_bind {α β : Type} {x : Except Misuse α} {f : α → Except Misuse β} {b : β}
    (h : x >>= f = .ok b) : ∃ a, x = .ok a ∧ f a = .ok b := by
  cases x with
  | error e => cases h
  | ok a => exact ⟨a, rfl, h⟩

namespace Slots

variable {o : Option String} {source : String} {slot : Slot} {x : Id}

theorem argument_eq (h : slots.argument (some source) = .ok slot) :
    slots.find? source = some slot := by
  dsimp only [argument] at h
  cases hf : slots.find? source with
  | none =>
    rw [hf] at h
    cases h
  | some slot' =>
    rw [hf] at h
    cases h
    rfl

/-- What an argument holds is read off the slot that it names. -/
theorem bind_of_argument {α : Type} {f : Slot → Option α} (h : slots.argument o = .ok slot)
    (hf : f .null = none) : (o.bind slots.find?).bind f = f slot := by
  cases o with
  | none =>
    cases h
    exact hf.symm
  | some source => rw [Option.bind_some, argument_eq h, Option.bind_some]

theorem find?_of_argument (h : slots.argument o = .ok slot) (hnull : slot ≠ .null) :
    o.bind slots.find? = some slot := by
  cases o with
  | none =>
    cases h
    exact absurd rfl hnull
  | some source => exact argument_eq h

theorem structAt_of_argument (h : slots.argument o = .ok slot) :
    slots.structAt o = slot.struct? := bind_of_argument h rfl

theorem objectAt_of_argument (h : slots.argument o = .ok slot) :
    slots.objectAt o = slot.object? := bind_of_argument h rfl

theorem argument_of_handle? {v : Option (Id × SharedInterface)} (h : slots.handle? o = .ok v) :
    slots.argument o = .ok (v.elim .null fun v => .handle v.1 v.2) := by
  obtain ⟨slot, hslot, h⟩ := ok_of_bind h
  cases slot <;> cases h <;> exact hslot

theorem argument_of_owner? {v : Option (Id × OwnedInterface)} (h : slots.owner? o = .ok v) :
    slots.argument o = .ok (v.elim .null fun v => .owner v.1 v.2) := by
  obtain ⟨slot, hslot, h⟩ := ok_of_bind h
  cases slot <;> cases h <;> exact hslot

theorem argument_of_struct? {y : Option Id} (h : slots.struct? o = .ok y) :
    slots.argument o = .ok (y.elim .null .struct) := by
  obtain ⟨slot, hslot, h⟩ := ok_of_bind h
  cases slot <;> cases h <;> exact hslot

theorem argument_of_handle {view : SharedInterface} (h : slots.handle source = .ok (x, view)) :
    slots.argument (some source) = .ok (.handle x view) := by
  obtain ⟨v, hv, h⟩ := ok_of_bind h
  cases v <;> cases h
  exact argument_of_handle? hv

theorem argument_of_owner {view : OwnedInterface} (h : slots.owner source = .ok (x, view)) :
    slots.argument (some source) = .ok (.owner x view) := by
  obtain ⟨v, hv, h⟩ := ok_of_bind h
  cases v <;> cases h
  exact argument_of_owner? hv

theorem argument_of_struct (h : slots.struct source = .ok x) :
    slots.argument (some source) = .ok (.struct x) := by
  obtain ⟨y, hy, h⟩ := ok_of_bind h
  cases y <;> cases h
  exact argument_of_struct? hy

theorem argument_of_leaked {view : SharedInterface} (h : slots.leaked source = .ok (x, view)) :
    slots.argument (some source) = .ok (.leaked x view) := by
  obtain ⟨slot, hslot, h⟩ := ok_of_bind h
  cases slot <;> cases h
  exact hslot

theorem argument_of_loan (h : slots.loan source = .ok x) :
    slots.argument (some source) = .ok (.loan x) := by
  obtain ⟨slot, hslot, h⟩ := ok_of_bind h
  cases slot <;> cases h
  exact hslot

theorem argument_of_device (h : slots.device source = .ok x) :
    slots.argument (some source) = .ok (.device x) := by
  obtain ⟨slot, hslot, h⟩ := ok_of_bind h
  cases slot <;> cases h
  exact hslot

/-! The other way round, a slot that is found is an argument of its kind. -/

theorem argument_of_find? (h : slots.find? source = some slot) :
    slots.argument (some source) = .ok slot := by
  rw [argument, h]

theorem handle?_of_find? {view : SharedInterface} (h : slots.find? source = some (.handle x view)) :
    slots.handle? (some source) = .ok (some (x, view)) := by
  rw [handle?, argument_of_find? h]
  rfl

theorem owner?_of_find? {view : OwnedInterface} (h : slots.find? source = some (.owner x view)) :
    slots.owner? (some source) = .ok (some (x, view)) := by
  rw [owner?, argument_of_find? h]
  rfl

theorem struct?_of_find? (h : slots.find? source = some (.struct x)) :
    slots.struct? (some source) = .ok (some x) := by
  rw [struct?, argument_of_find? h]
  rfl

theorem handle_of_find? {view : SharedInterface} (h : slots.find? source = some (.handle x view)) :
    slots.handle source = .ok (x, view) := by
  rw [handle, handle?_of_find? h]
  rfl

theorem struct_of_find? (h : slots.find? source = some (.struct x)) :
    slots.struct source = .ok x := by
  rw [struct, struct?_of_find? h]
  rfl

theorem leaked_of_find? {view : SharedInterface} (h : slots.find? source = some (.leaked x view)) :
    slots.leaked source = .ok (x, view) := by
  rw [leaked, argument_of_find? h]
  rfl

end Slots

theorem viewed_eq {View : Type} [DecidableEq View] {expected : View} {v : Option (Id × View)}
    {o : Option Id} (h : viewed expected v = .ok o) : v = o.map fun x => (x, expected) := by
  cases v with
  | none =>
    cases h
    rfl
  | some v =>
    obtain ⟨x, view⟩ := v
    dsimp only [viewed] at h
    split at h
    · rename_i hview
      cases h
      rw [hview]
      rfl
    · cases h

/-! ## Handles -/

namespace HandleStep

/-- The plans of steps on handles. -/
inductive Planned (slots : Slots) : HandleStep → Plan → Prop
  | clone (source name : String) (o : Id) (view : SharedInterface) :
    slots.argument (some source) = .ok (.handle o view) →
      Planned slots (.clone source name) (.making name do
        Act.retain o
        pure (.null, .handle o view))
  | drop (source : String) (slot : Slot) (act : Act Unit) :
    slots.argument (some source) = .ok slot → giveUp slot = .ok act →
      Planned slots (.drop source) ((Plan.answering (silently act)).consuming source)
  | leak (source name : String) (o : Id) (view : SharedInterface) :
    slots.argument (some source) = .ok (.handle o view) →
      Planned slots (.leak source name)
        ((Plan.making name (pure (.null, .leaked o view))).consuming source)
  | reclaim (source name : String) (o : Id) (view : SharedInterface) :
    slots.argument (some source) = .ok (.leaked o view) →
      Planned slots (.reclaim source name)
        ((Plan.making name (pure (.null, .handle o view))).consuming source)
  | retain (source name : String) (o : Id) (view : SharedInterface) :
    slots.argument (some source) = .ok (.leaked o view) →
      Planned slots (.retain source name) (.making name do
        Act.retain o
        pure (.null, .handle o view))
  | release (source : String) (o : Id) (view : SharedInterface) :
    slots.argument (some source) = .ok (.leaked o view) →
      Planned slots (.release source)
        ((Plan.answering (asTruth (Act.release o))).consuming source)
  | upcast (source : String) (target : Upcast) (name : String) (slot slot' : Slot) :
    slots.argument (some source) = .ok slot → upcastSlot target slot = .ok slot' →
      Planned slots (.upcast source target name)
        ((Plan.making name (pure (.null, slot'))).consuming source)
  | same (source other : String) (o o' : Id) :
    Planned slots (.same source other) (.answering (pure (.flag (o == o'))))
  | ask (question : Question) (source : String) (o : Id) (view : SharedInterface) :
    slots.argument (some source) = .ok (.handle o view) →
      Planned slots (.ask question source) (.answering (asTruth (Act.ask question o)))
  | reportedTag (source : String) (slot : Slot) (o : Id) :
    slots.argument (some source) = .ok slot → heldObject slot = .ok o →
      Planned slots (.reportedTag source) (.answering do
        match (← Act.entity o).reportedTag? with
        | some t => pure (.text t.text)
        | none => pure .null)
  | value (source : String) (slot : Slot) (o : Id) :
    slots.argument (some source) = .ok slot → askable 0 slot = .ok o →
      Planned slots (.value source) (.answering (asNumber (Act.answer 0 o)))
  | otherValue (source : String) (slot : Slot) (o : Id) :
    slots.argument (some source) = .ok slot → askable 1 slot = .ok o →
      Planned slots (.otherValue source) (.answering (asNumber (Act.answer 1 o)))
  | lookup (source : String) (index : Int32) (o : Id) (view : SharedInterface) :
    slots.argument (some source) = .ok (.handle o view) →
      Planned slots (.lookup source index) (.answering (lookupIn o index))
  | describe (source : String) (slot : Slot) :
    slots.argument (some source) = .ok slot →
      Planned slots (.describe source) (.answering (shown slot))

theorem planned {x : HandleStep} (h : x.plan slots = .ok p) : x.Planned slots p := by
  cases x with
  | clone source name =>
    obtain ⟨_, ho, h⟩ := ok_of_bind h
    cases h
    exact .clone source name _ _ (Slots.argument_of_handle ho)
  | drop source =>
    obtain ⟨_, hslot, h⟩ := ok_of_bind h
    obtain ⟨_, hact, h⟩ := ok_of_bind h
    cases h
    exact .drop source _ _ hslot hact
  | leak source name =>
    obtain ⟨_, ho, h⟩ := ok_of_bind h
    cases h
    exact .leak source name _ _ (Slots.argument_of_handle ho)
  | reclaim source name =>
    obtain ⟨_, ho, h⟩ := ok_of_bind h
    cases h
    exact .reclaim source name _ _ (Slots.argument_of_leaked ho)
  | retain source name =>
    obtain ⟨_, ho, h⟩ := ok_of_bind h
    cases h
    exact .retain source name _ _ (Slots.argument_of_leaked ho)
  | release source =>
    obtain ⟨_, ho, h⟩ := ok_of_bind h
    cases h
    exact .release source _ _ (Slots.argument_of_leaked ho)
  | upcast source target name =>
    obtain ⟨_, hslot, h⟩ := ok_of_bind h
    obtain ⟨_, hup, h⟩ := ok_of_bind h
    cases h
    exact .upcast source target name _ _ hslot hup
  | same source other =>
    obtain ⟨_, -, h⟩ := ok_of_bind h
    obtain ⟨_, -, h⟩ := ok_of_bind h
    cases h
    exact .same source other _ _
  | ask question source =>
    obtain ⟨_, ho, h⟩ := ok_of_bind h
    cases h
    exact .ask question source _ _ (Slots.argument_of_handle ho)
  | reportedTag source =>
    obtain ⟨_, hslot, h⟩ := ok_of_bind h
    obtain ⟨_, ho, h⟩ := ok_of_bind h
    cases h
    exact .reportedTag source _ _ hslot ho
  | value source =>
    obtain ⟨_, hslot, h⟩ := ok_of_bind h
    obtain ⟨_, ho, h⟩ := ok_of_bind h
    cases h
    exact .value source _ _ hslot ho
  | otherValue source =>
    obtain ⟨_, hslot, h⟩ := ok_of_bind h
    obtain ⟨_, ho, h⟩ := ok_of_bind h
    cases h
    exact .otherValue source _ _ hslot ho
  | lookup source index =>
    obtain ⟨_, ho, h⟩ := ok_of_bind h
    cases h
    exact .lookup source index _ _ (Slots.argument_of_handle ho)
  | describe source =>
    obtain ⟨_, hslot, h⟩ := ok_of_bind h
    cases h
    exact .describe source _ hslot

end HandleStep

/-! ## Shared objects that cross the boundary -/

namespace SharedStep

/-- A step makes nothing of a null argument. -/
inductive TakesNull (source : Option String) (name : String) : SharedStep → Prop
  | wrap (c : SharedClass) : TakesNull source name (.wrap c source name)
  | unwrap (c : SharedClass) : TakesNull source name (.unwrap c source name)
  | receive (c : ProxyClass) : TakesNull source name (.receive c source name)
  | giveBack (c : ProxyClass) : TakesNull source name (.giveBack c source name)

/-- The plans of steps by which shared objects cross. -/
inductive Planned (slots : Slots) : SharedStep → Plan → Prop
  | null (x : SharedStep) (source : Option String) (name : String) :
    x.TakesNull source name → slots.argument source = .ok .null →
      Planned slots x (.making name (pure (.null, .null)))
  | wrap (c : SharedClass) (source : Option String) (name : String) (o : Id) :
    slots.argument source = .ok (.handle o c.interface) →
      Planned slots (.wrap c source name) ((Plan.making name do
        holding .struct (some (← c.wrap name o))).consuming source)
  | unwrap (c : SharedClass) (source : Option String) (name : String) (y : Id) :
    slots.argument source = .ok (.struct y) →
      Planned slots (.unwrap c source name) (.making name do
        holding (fun o => .handle o c.interface) (← c.unwrap y))
  | inspect (c : SharedClass) (source : String) (y : Id) :
    slots.argument (some source) = .ok (.struct y) →
      Planned slots (.inspect c source) (.answering do
        match ← c.inspect y with
        | some r => pure (.sharedReport r)
        | none => pure .null)
  | retainWrapper (c : SharedClass) (source : String) (y : Id) :
    slots.argument (some source) = .ok (.struct y) →
      Planned slots (.retainWrapper c source) (.answering do
        if ← Act.recognises c.tag y then
          Act.retain y
        pure .null)
  | releaseWrapper (c : SharedClass) (source : String) (y : Id) :
    slots.argument (some source) = .ok (.struct y) →
      Planned slots (.releaseWrapper c source) (.answering do
        if ← Act.recognises c.tag y then
          asTruth (Act.release y)
        else pure .null)
  | receive (c : ProxyClass) (source : Option String) (name : String) (y : Id) :
    slots.argument source = .ok (.struct y) →
      Planned slots (.receive c source name) (.making name do
        requireShared y
        holding (fun o => .handle o c.sharedInterface) (some (← c.receive name y)))
  | giveBack (c : ProxyClass) (source : Option String) (name : String) (o : Id) :
    slots.argument source = .ok (.handle o c.sharedInterface) →
      Planned slots (.giveBack c source name) ((Plan.making name do
        holding .struct (← c.giveBack o)).consuming source)
  | target (step : TargetStep) (source : String) (o : Id) (view : SharedInterface) :
    slots.argument (some source) = .ok (.handle o view) →
      Planned slots (.target step source) (.answering do
        match ← Act.entity o with
        | .sharedProxy p => targetAct p step
        | _ => Act.refuse .wrongKind)

theorem planned {x : SharedStep} (h : x.plan slots = .ok p) : x.Planned slots p := by
  cases x with
  | wrap c source name =>
    obtain ⟨_, hv, h⟩ := ok_of_bind h
    obtain ⟨o, ho, h⟩ := ok_of_bind h
    cases h
    cases viewed_eq ho
    cases o with
    | none => exact .null _ source name (.wrap c) (Slots.argument_of_handle? hv)
    | some o => exact .wrap c source name o (Slots.argument_of_handle? hv)
  | unwrap c source name =>
    obtain ⟨y, hy, h⟩ := ok_of_bind h
    cases h
    cases y with
    | none => exact .null _ source name (.unwrap c) (Slots.argument_of_struct? hy)
    | some y => exact .unwrap c source name y (Slots.argument_of_struct? hy)
  | inspect c source =>
    obtain ⟨_, hy, h⟩ := ok_of_bind h
    cases h
    exact .inspect c source _ (Slots.argument_of_struct hy)
  | retainWrapper c source =>
    obtain ⟨_, hy, h⟩ := ok_of_bind h
    cases h
    exact .retainWrapper c source _ (Slots.argument_of_struct hy)
  | releaseWrapper c source =>
    obtain ⟨_, hy, h⟩ := ok_of_bind h
    cases h
    exact .releaseWrapper c source _ (Slots.argument_of_struct hy)
  | receive c source name =>
    obtain ⟨y, hy, h⟩ := ok_of_bind h
    cases h
    cases y with
    | none => exact .null _ source name (.receive c) (Slots.argument_of_struct? hy)
    | some y => exact .receive c source name y (Slots.argument_of_struct? hy)
  | giveBack c source name =>
    obtain ⟨_, hv, h⟩ := ok_of_bind h
    obtain ⟨o, ho, h⟩ := ok_of_bind h
    cases h
    cases viewed_eq ho
    cases o with
    | none => exact .null _ source name (.giveBack c) (Slots.argument_of_handle? hv)
    | some o => exact .giveBack c source name o (Slots.argument_of_handle? hv)
  | target step source =>
    obtain ⟨_, ho, h⟩ := ok_of_bind h
    cases h
    exact .target step source _ _ (Slots.argument_of_handle ho)

end SharedStep

/-! ## Owned objects that cross the boundary -/

namespace OwnedStep

/-- A step makes nothing of a null argument. -/
inductive TakesNull (source : Option String) (name : String) : OwnedStep → Prop
  | give (c : OwnedClass) : TakesNull source name (.give c source name)
  | lend (c : OwnedClass) : TakesNull source name (.lend c source name)
  | takeBack (c : OwnedClass) : TakesNull source name (.takeBack c source name)
  | adopt (c : ProxyClass) : TakesNull source name (.adopt c source name)
  | surrender (c : ProxyClass) : TakesNull source name (.surrender c source name)
  | reveal (c : ProxyClass) : TakesNull source name (.reveal c source name)

/-- The plans of steps by which owned objects cross. -/
inductive Planned (slots : Slots) : OwnedStep → Plan → Prop
  | null (x : OwnedStep) (source : Option String) (name : String) :
    x.TakesNull source name → slots.argument source = .ok .null →
      Planned slots x (.making name (pure (.null, .null)))
  | give (c : OwnedClass) (source : Option String) (name : String) (o : Id) :
    slots.argument source = .ok (.owner o c.interface) →
      Planned slots (.give c source name) ((Plan.making name do
        holding .struct (some (← c.give name o))).consuming source)
  | lend (c : OwnedClass) (source : Option String) (name : String) (o : Id) :
    slots.argument source = .ok (.owner o c.interface) →
      Planned slots (.lend c source name) (.making name do
        holding .loan (some (← c.lend name o)))
  | loanStruct (source name : String) (y : Id) :
    slots.argument (some source) = .ok (.loan y) →
      Planned slots (.loanStruct source name) (.making name do
        discard (Act.entity y)
        holding .struct (some y))
  | takeBack (c : OwnedClass) (source : Option String) (name : String) (y : Id) :
    slots.argument source = .ok (.struct y) →
      Planned slots (.takeBack c source name) (.making name do
        holding (fun o => .owner o c.interface) (← c.takeBack y))
  | borrowNull (c : OwnedClass) (source : Option String) :
    slots.argument source = .ok .null →
      Planned slots (.borrow c source) (.answering (pure .null))
  | borrow (c : OwnedClass) (source : Option String) (y : Id) :
    slots.argument source = .ok (.struct y) →
      Planned slots (.borrow c source) (.answering do asName (← c.borrow y))
  | inspect (c : OwnedClass) (source : String) (y : Id) :
    slots.argument (some source) = .ok (.struct y) →
      Planned slots (.inspect c source) (.answering do
        match ← c.inspect y with
        | some r => pure (.ownedReport r)
        | none => pure .null)
  | adopt (c : ProxyClass) (source : Option String) (name : String) (y : Id) :
    slots.argument source = .ok (.struct y) →
      Planned slots (.adopt c source name) (.making name do
        requireOwned y
        holding (fun o => .owner o c.ownedInterface) (some (← c.adopt name y)))
  | surrender (c : ProxyClass) (source : Option String) (name : String) (o : Id) :
    slots.argument source = .ok (.owner o c.ownedInterface) →
      Planned slots (.surrender c source name) ((Plan.making name do
        holding .struct (← c.surrender o)).consuming source)
  | reveal (c : ProxyClass) (source : Option String) (name : String) (o : Id) :
    slots.argument source = .ok (.owner o c.ownedInterface) →
      Planned slots (.reveal c source name) (.making name do
        holding .struct (← c.reveal o))
  | takeTarget (source name : String) (o : Id) (view : OwnedInterface) :
    slots.argument (some source) = .ok (.owner o view) →
      Planned slots (.takeTarget source name) (.making name do
        holding .struct (← ProxyClass.takeTarget o))

theorem planned {x : OwnedStep} (h : x.plan slots = .ok p) : x.Planned slots p := by
  cases x with
  | give c source name =>
    obtain ⟨_, hv, h⟩ := ok_of_bind h
    obtain ⟨o, ho, h⟩ := ok_of_bind h
    cases h
    cases viewed_eq ho
    cases o with
    | none => exact .null _ source name (.give c) (Slots.argument_of_owner? hv)
    | some o => exact .give c source name o (Slots.argument_of_owner? hv)
  | lend c source name =>
    obtain ⟨_, hv, h⟩ := ok_of_bind h
    obtain ⟨o, ho, h⟩ := ok_of_bind h
    cases h
    cases viewed_eq ho
    cases o with
    | none => exact .null _ source name (.lend c) (Slots.argument_of_owner? hv)
    | some o => exact .lend c source name o (Slots.argument_of_owner? hv)
  | loanStruct source name =>
    obtain ⟨_, hy, h⟩ := ok_of_bind h
    cases h
    exact .loanStruct source name _ (Slots.argument_of_loan hy)
  | takeBack c source name =>
    obtain ⟨y, hy, h⟩ := ok_of_bind h
    cases h
    cases y with
    | none => exact .null _ source name (.takeBack c) (Slots.argument_of_struct? hy)
    | some y => exact .takeBack c source name y (Slots.argument_of_struct? hy)
  | borrow c source =>
    obtain ⟨y, hy, h⟩ := ok_of_bind h
    cases h
    cases y with
    | none => exact .borrowNull c source (Slots.argument_of_struct? hy)
    | some y => exact .borrow c source y (Slots.argument_of_struct? hy)
  | inspect c source =>
    obtain ⟨_, hy, h⟩ := ok_of_bind h
    cases h
    exact .inspect c source _ (Slots.argument_of_struct hy)
  | adopt c source name =>
    obtain ⟨y, hy, h⟩ := ok_of_bind h
    cases h
    cases y with
    | none => exact .null _ source name (.adopt c) (Slots.argument_of_struct? hy)
    | some y => exact .adopt c source name y (Slots.argument_of_struct? hy)
  | surrender c source name =>
    obtain ⟨_, hv, h⟩ := ok_of_bind h
    obtain ⟨o, ho, h⟩ := ok_of_bind h
    cases h
    cases viewed_eq ho
    cases o with
    | none => exact .null _ source name (.surrender c) (Slots.argument_of_owner? hv)
    | some o => exact .surrender c source name o (Slots.argument_of_owner? hv)
  | reveal c source name =>
    obtain ⟨_, hv, h⟩ := ok_of_bind h
    obtain ⟨o, ho, h⟩ := ok_of_bind h
    cases h
    cases viewed_eq ho
    cases o with
    | none => exact .null _ source name (.reveal c) (Slots.argument_of_owner? hv)
    | some o => exact .reveal c source name o (Slots.argument_of_owner? hv)
  | takeTarget source name =>
    obtain ⟨_, ho, h⟩ := ok_of_bind h
    cases h
    exact .takeTarget source name _ _ (Slots.argument_of_owner ho)

end OwnedStep

/-! ## Structures -/

namespace StructStep

/-- The plans of steps on structures. -/
inductive Planned (slots : Slots) : StructStep → Plan → Prop
  | call (source member : String) (r : Receiver) (y : Id) (r' : Option Id) :
    slots.argument (some source) = .ok (.struct y) → receiver slots y r = .ok r' →
      Planned slots (.call source member r) (.answering do
        let i ← position y member
        return replyValue (← Act.call y i r'))
  | clear (source member : String) (y : Id) :
    slots.argument (some source) = .ok (.struct y) →
      Planned slots (.clear source member) (.answering do
        let i ← position y member
        silently (change y fun t => t.clear i))
  | resize (source : String) (n : UInt64) (y : Id) :
    slots.argument (some source) = .ok (.struct y) →
      Planned slots (.resize source n) (.answering (silently (change y fun t => t.withSize n)))
  | size (source : String) (y : Id) :
    slots.argument (some source) = .ok (.struct y) →
      Planned slots (.size source) (.answering do
        return .number (← Act.struct y).size.toNat)
  | object (c : WrapperClass) (source : String) (y : Id) :
    slots.argument (some source) = .ok (.struct y) →
      Planned slots (.object c source) (.answering do
        asName (← Act.objectOf c.tag y))

theorem planned {x : StructStep} (h : x.plan slots = .ok p) : x.Planned slots p := by
  cases x with
  | call source member r =>
    obtain ⟨_, hy, h⟩ := ok_of_bind h
    obtain ⟨_, hr, h⟩ := ok_of_bind h
    cases h
    exact .call source member r _ _ (Slots.argument_of_struct hy) hr
  | clear source member =>
    obtain ⟨_, hy, h⟩ := ok_of_bind h
    cases h
    exact .clear source member _ (Slots.argument_of_struct hy)
  | resize source n =>
    obtain ⟨_, hy, h⟩ := ok_of_bind h
    cases h
    exact .resize source n _ (Slots.argument_of_struct hy)
  | size source =>
    obtain ⟨_, hy, h⟩ := ok_of_bind h
    cases h
    exact .size source _ (Slots.argument_of_struct hy)
  | object c source =>
    obtain ⟨_, hy, h⟩ := ok_of_bind h
    cases h
    exact .object c source _ (Slots.argument_of_struct hy)

end StructStep

/-! ## New entities and devices -/

/-- A new entity is planned with the slot that is to hold it. -/
theorem Creation.planned {c : Creation} {name : String} (h : c.plan name = .ok p) :
    ∃ e slot, c.entity = .ok (e, slot) ∧ p = .making name (do
      let x ← Act.create name e
      if c.isDevice then pure (.null, slot x) else holding slot (some x)) := by
  obtain ⟨⟨e, slot⟩, he, h⟩ := ok_of_bind h
  cases h
  exact ⟨e, slot, he, rfl⟩

/-- A step on a device is planned as what it does with the device. -/
theorem DeviceStep.planned {x : DeviceStep} {source : String} (h : x.plan slots source = .ok p) :
    ∃ k, slots.argument (some source) = .ok (.device k) ∧ p = .answering (x.act k) := by
  obtain ⟨k, hk, h⟩ := ok_of_bind h
  cases h
  exact ⟨k, Slots.argument_of_device hk, rfl⟩

end ObjectBoundary.Session
