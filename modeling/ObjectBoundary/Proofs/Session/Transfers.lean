import ObjectBoundary.Proofs.Acts.Transfers
import ObjectBoundary.Proofs.Session.Exchange
import ObjectBoundary.Proofs.Session.Twins

/-!
# Transfers of structures

A step that takes over a reference or the ownership of a structure does exactly that, or it leaves
everything as it was, up to what it logs.

* `Transfer`: such steps.
* `Transfer.taken`: what such a step leaves where nothing fails.
* `State.Leaves`: a step has left everything as it was.
* `Transfer.fails_act`, `Transfer.makes_act`: each of them does the one or the other.
* `transfers_atomic`: this holds in every reachable state.
* `not_transfers_atomic_cleared`: it takes the members that count references.
-/

namespace ObjectBoundary.Session

open ObjectBoundary Act

variable {s : State} {x : Step} {w : World} {z : Id} {n : Node} {source name : String}

/-! ## Transfers -/

/-- A step that takes over a reference or the ownership of a structure. -/
inductive Transfer where
  | unwrap (cls : SharedClass)
  | takeBack (cls : OwnedClass)
  | receive (cls : ProxyClass)
  | adopt (cls : ProxyClass)

namespace Transfer

def step (source name : String) : Transfer → Step
  | unwrap c => .shared (.unwrap c (some source) name)
  | takeBack c => .owned (.takeBack c (some source) name)
  | receive c => .shared (.receive c (some source) name)
  | adopt c => .owned (.adopt c (some source) name)

def act (z : Id) (name : String) : Transfer → Act (Value × Slot)
  | unwrap c => c.unwrap z >>= holding fun o => .handle o c.interface
  | takeBack c => c.takeBack z >>= holding fun o => .owner o c.interface
  | receive c => (SharedStep.requireShared z >>= fun _ => c.receive name z) >>= fun p =>
      holding (fun o => .handle o c.sharedInterface) (some p)
  | adopt c => (OwnedStep.requireOwned z >>= fun _ => c.adopt name z) >>= fun p =>
      holding (fun o => .owner o c.ownedInterface) (some p)

/-- The entities and the slot that a step leaves where nothing fails. There is nothing to be taken
over from a wrapper of a class that the step does not know, nor ownership from one that only
borrows. -/
def taken (name : String) (st : Store) (z : Id) : Transfer → Entity → Option (Store × Slot)
  | unwrap c, .sharedWrapper v =>
    if c.Recovers v.cls then some (st.modify z Node.lowered, .handle v.object c.interface)
    else none
  | takeBack c, .ownedWrapper v =>
    if c.Recovers v.cls ∧ v.owns = true then
      v.object.map fun o => (st.modify z (OwnedClass.vacated v), .owner o c.interface)
    else none
  | receive c, .sharedWrapper _ | receive c, .sharedFar _ =>
    some (st.push ⟨name, .sharedProxy ⟨c, z, Count.zero.succ⟩, true⟩,
      .handle st.size c.sharedInterface)
  | adopt c, .ownedWrapper _ | adopt c, .ownedFar _ =>
    some (st.push ⟨name, .ownedProxy ⟨c, some z⟩, true⟩, .owner st.size c.ownedInterface)
  | _, _ => none

theorem plan_step (m : Transfer) {slots : Slots} (h : slots.find? source = some (.struct z))
    (name : String) : (m.step source name).plan slots = .ok (.making name (m.act z name)) := by
  cases m with
  | unwrap c => exact plan_unwrap h c name
  | takeBack c => exact plan_takeBack h c name
  | receive c => exact plan_receive h c name
  | adopt c =>
    show (slots.struct? (some source) >>= _) = _
    rw [Slots.struct?_of_find? h, act, bind_assoc]
    rfl

end Transfer

/-! ## Steps that leave everything as it was -/

/-- A step makes nothing of a structure or unwinds. It logs reports and touches nothing. -/
structure State.Leaves (s : State) (x : Step) (name : String) : Prop where
  untouched : s.begun.Untouched (s.step x).2.world
  answer : (s.step x).1.outcome = .done .null ∧ (s.step x).2.slots = s.slots.add name .null ∨
    ∃ failure, (s.step x).1.outcome = .unwound failure ∧ (s.step x).2.slots = s.slots

namespace State

section Accepted

variable {act : Act (Value × Slot)} (h : s.accepts x = true)
  (hp : x.plan s.slots = .ok (.making name act))
include h hp

theorem not_refuses_of_accepts : ¬ Refuses act s.begun := by
  intro hrefuses
  obtain ⟨m, w', hact⟩ := hrefuses .normal
  obtain ⟨p, hp', -, hcases⟩ := accepts_cases h
  cases hp.symm.trans hp'
  rcases hcases with ⟨_, _, _, hr, -⟩ | ⟨_, _, hr, -⟩ | ⟨_, _, hr, -⟩ <;> cases hact.symm.trans hr

theorem nameIsFree_of_accepts : nameIsFree s.slots (.making name act) = true := by
  obtain ⟨p, hp', hfree, -⟩ := accepts_cases h
  cases hp.symm.trans hp'
  exact hfree

theorem leaves_of_fails (hf : Fails act s.begun (.null, .null)) : s.Leaves x name := by
  have hfree := nameIsFree_of_accepts h hp
  obtain ⟨w', hu, hdone | ⟨failure, hunwound⟩⟩ := hf
  · have hstep := step_of_done hp hfree hdone
    refine ⟨?_, Or.inl ⟨?_, ?_⟩⟩ <;> rw [hstep]
    · exact hu
    · rfl
    · rfl
  · have hstep := step_of_unwound hp hfree hunwound
    refine ⟨?_, Or.inr ⟨failure, ?_, ?_⟩⟩ <;> rw [hstep]
    · exact hu
    · rfl
    · rfl

end Accepted

end State

/-! ## What a transfer does -/

/-- An act that looks at its structure first fails where the check of the start of shutdown, which
comes next, unwinds. -/
theorem fails_looking {β γ : Type} {look : Act Unit} {f : Unit → Act β} {g : β → Act γ} {a : γ}
    (hlook : Yields look w ()) (hu : Respects World.Untouched look w) (ht : ¬ w.IsTolerant) :
    Fails ((look >>= fun _ => requireRunning >>= f) >>= g) w a := by
  rw [bind_assoc]
  refine fails_bind hlook hu fun w' h' => ?_
  rw [bind_assoc]
  refine fails_requireRunning (fun ht' => ht fun hd hs => ?_) a
  rw [← h'.quiet.isShutdown] at hd
  rw [← h'.quiet.inForce] at hs ⊢
  exact ht' hd hs

section Kinds

variable (hn : w.store.get? z = some n) (hlive : n.live = true)
include hn hlive

theorem refuses_wrapperTag (ht : n.entity.wrapperTag? = none) : Refuses (wrapperTag z) w := by
  apply refuses_entity_bind hn hlive
  rw [ht]
  exact fun _ => ⟨.wrongKind, w, rfl⟩

/-- Only a reference counted structure gets a shared proxy. -/
theorem requireShared_cases : Refuses (SharedStep.requireShared z) w ∨
    Yields (SharedStep.requireShared z) w () ∧ w.store.HasRole z .sharedStructure ∧
      ∀ (c : ProxyClass) (name : String) (st : Store),
        (Transfer.receive c).taken name st z n.entity =
          some (st.push ⟨name, .sharedProxy ⟨c, z, Count.zero.succ⟩, true⟩,
            .handle st.size c.sharedInterface) := by
  obtain ⟨label, e, live⟩ := n
  cases e with
  | sharedWrapper v | sharedFar v =>
    exact Or.inr ⟨yields_entity_bind hn hlive (yields_pure _ w), ⟨_, hn, rfl⟩, fun _ _ _ => rfl⟩
  | _ => exact Or.inl (refuses_entity_bind hn hlive fun _ => ⟨.wrongKind, w, rfl⟩)

/-- Only a structure with a single owner gets an owned proxy. -/
theorem requireOwned_cases : Refuses (OwnedStep.requireOwned z) w ∨
    Yields (OwnedStep.requireOwned z) w () ∧
      ∀ (c : ProxyClass) (name : String) (st : Store), (Transfer.adopt c).taken name st z n.entity =
        some (st.push ⟨name, .ownedProxy ⟨c, some z⟩, true⟩, .owner st.size c.ownedInterface) := by
  obtain ⟨label, e, live⟩ := n
  cases e with
  | ownedWrapper v | ownedFar v =>
    exact Or.inr ⟨yields_entity_bind hn hlive (yields_pure _ w), fun _ _ _ => rfl⟩
  | _ => exact Or.inl (refuses_entity_bind hn hlive fun _ => ⟨.wrongKind, w, rfl⟩)

end Kinds

namespace Transfer

/-- A class of shared wrappers that takes nothing from a wrapper does not know its tag. -/
theorem tag_ne_of_unwrap {c d : SharedClass} {t : Tag} {st : Store} {e : Entity}
    (hnone : (unwrap c).taken name st z e = none) (ht : e.wrapperTag? = some t)
    (hd : c.Recovers d) : d.tag ≠ t := by
  rintro rfl
  cases e with
  | sharedWrapper v =>
    cases SharedClass.tag_injective (Option.some.inj ht)
    rw [taken, if_pos hd] at hnone
    cases hnone
  | ownedWrapper v => exact v.cls.tag_ne_sharedTag d (Option.some.inj ht)
  | _ => cases ht

/-- The same goes for a class of owned wrappers that does not know a wrapper. -/
theorem tag_ne_of_takeBack {c d : OwnedClass} {t : Tag} {e : Entity}
    (hno : ¬ ∃ v, e = .ownedWrapper v ∧ c.Recovers v.cls) (ht : e.wrapperTag? = some t)
    (hd : c.Recovers d) : d.tag ≠ t := by
  rintro rfl
  cases e with
  | sharedWrapper v => exact d.tag_ne_sharedTag v.cls (Option.some.inj ht).symm
  | ownedWrapper v =>
    cases OwnedClass.tag_injective (Option.some.inj ht)
    exact hno ⟨v, rfl, hd⟩
  | _ => cases ht

/-- A wrapper that has an object and gives none back to a class that knows it only borrows. -/
theorem borrowed_of_takeBack {c : OwnedClass} {v : OwnedWrapper} {label : String} {st : Store}
    (hnone : (takeBack c).taken name st z (.ownedWrapper v) = none)
    (hvacant : ¬ Node.IsVacant ⟨label, .ownedWrapper v, true⟩) (hc : c.Recovers v.cls) :
    v.owns = false := by
  by_contra howns
  rw [Bool.not_eq_false] at howns
  rw [taken, if_pos ⟨hc, howns⟩, Option.map_eq_none_iff] at hnone
  exact hvacant ⟨rfl, congrArg Option.isNone hnone⟩

/-- Where nothing is to be taken over, a step fails, unless it is refused. -/
theorem fails_act (m : Transfer) (hn : w.store.get? z = some n) (hlive : n.live = true)
    (hvacant : ¬ n.IsVacant)
    (hfail : ¬ w.IsTolerant ∨ m.taken name w.store z n.entity = none) :
    Refuses (m.act z name) w ∨ Fails (m.act z name) w (.null, .null) := by
  cases m with
  | unwrap c =>
    by_cases ht : w.IsTolerant
    · have hnone := hfail.resolve_left (not_not_intro ht)
      cases htag : n.entity.wrapperTag? with
      | none =>
        left
        refine refuses_bind (refuses_after (yields_requireRunning ht) fun w₁ h₁ => ?_)
        exact refuses_bind (refuses_wrapperTag (h₁.store.symm ▸ hn) hlive htag)
      | some t =>
        right
        refine fails_then (SharedClass.fails_unwrap hn hlive htag fun d hd => ?_) rfl
        exact tag_ne_of_unwrap hnone htag hd
    · exact Or.inr (fails_then (fails_requireRunning ht none) rfl)
  | takeBack c =>
    by_cases ht : w.IsTolerant
    · have hnone := hfail.resolve_left (not_not_intro ht)
      cases htag : n.entity.wrapperTag? with
      | none =>
        left
        refine refuses_bind (refuses_after (yields_requireRunning ht) fun w₁ h₁ => ?_)
        exact refuses_bind (refuses_wrapperTag (h₁.store.symm ▸ hn) hlive htag)
      | some t =>
        right
        refine fails_then (b := none) ?_ rfl
        by_cases hknown : ∃ v, n.entity = .ownedWrapper v ∧ c.Recovers v.cls
        · obtain ⟨v, he, hc⟩ := hknown
          obtain ⟨label, e, live⟩ := n
          cases he
          cases hlive
          exact OwnedClass.fails_takeBack_borrowed hn hc (borrowed_of_takeBack hnone hvacant hc)
        · refine OwnedClass.fails_takeBack hn hlive htag fun d hd => ?_
          exact tag_ne_of_takeBack hknown htag hd
    · exact Or.inr (fails_then (fails_requireRunning ht none) rfl)
  | receive c =>
    rcases requireShared_cases hn hlive with hrefuses | ⟨hlook, -, htaken⟩
    · exact Or.inl (refuses_bind (refuses_bind hrefuses))
    · rw [htaken c name] at hfail
      exact Or.inr (fails_looking hlook respects_requireShared (hfail.resolve_right nofun))
  | adopt c =>
    rcases requireOwned_cases hn hlive with hrefuses | ⟨hlook, htaken⟩
    · exact Or.inl (refuses_bind (refuses_bind hrefuses))
    · rw [htaken c name] at hfail
      exact Or.inr (fails_looking hlook respects_requireOwned (hfail.resolve_right nofun))

section Taken

variable {st : Store} {slot : Slot} {view : Id → Slot} {y : Id}

theorem makes_held {act : Act (Option Id)} (h : Makes act w (some y) st) :
    ∃ v, Makes (act >>= holding view) w (v, view y) st :=
  ⟨_, makes_bind h fun _ h' => makes_holding view y h'.store⟩

theorem makes_held_new {act : Act Id} (h : Makes act w y st) :
    ∃ v, Makes (act >>= fun p => holding view (some p)) w (v, view y) st :=
  ⟨_, makes_bind h fun _ h' => makes_holding view y h'.store⟩

/-- Where something is to be taken over, a step does that and nothing else, unless it is refused
because something below the structure is missing. -/
theorem makes_act (m : Transfer) (hs : w.store.Sound) (ht : w.IsTolerant)
    (hn : w.store.get? z = some n) (hlive : n.live = true)
    (htaken : m.taken name w.store z n.entity = some (st, slot))
    (hacc : ∀ y ∈ w.store.chain z, w.store.Accountable y)
    (hr : w.store.CanRise (w.store.chain z)) :
    Refuses (m.act z name) w ∨ ∃ v, Makes (m.act z name) w (v, slot) st := by
  cases m with
  | unwrap c =>
    obtain ⟨label, e, live⟩ := n
    cases hlive
    cases e with
    | sharedWrapper v =>
      obtain ⟨hc, heq⟩ := Option.ite_none_right_eq_some.mp htaken
      cases heq
      by_cases hup : w.store.Upheld (w.store.chain z)
      · exact Or.inr (makes_held (SharedClass.makes_unwrap hs ht hn ⟨⟨hup, hacc⟩, hr⟩ hc))
      · exact Or.inl (refuses_bind (SharedClass.refuses_unwrap hs.linked ht hn hc hacc hr hup))
    | _ => cases htaken
  | takeBack c =>
    obtain ⟨label, e, live⟩ := n
    cases hlive
    cases e with
    | ownedWrapper v =>
      obtain ⟨⟨hc, howns⟩, hobject⟩ := Option.ite_none_right_eq_some.mp htaken
      obtain ⟨o, ho, heq⟩ := Option.map_eq_some_iff.mp hobject
      cases heq
      exact Or.inr (makes_held (OwnedClass.makes_takeBack hn hc howns ho ht))
    | _ => cases htaken
  | receive c =>
    rcases requireShared_cases hn hlive with hrefuses | ⟨hlook, hrole, heq⟩
    · exact Or.inl (refuses_bind (refuses_bind hrefuses))
    · cases (heq c name w.store).symm.trans htaken
      by_cases hup : w.store.Upheld (w.store.chain z)
      · refine Or.inr (makes_held_new (makes_yields_bind hlook fun w₁ h₁ => ?_))
        have ht₁ : w₁.IsTolerant := h₁.isTolerant ht
        rw [← h₁.store] at hs hrole hacc hr hup ⊢
        exact c.makes_receive name hs ht₁ hrole ⟨⟨hup, hacc⟩, hr⟩
      · refine Or.inl (refuses_bind (refuses_after hlook fun w₁ h₁ => ?_))
        have ht₁ : w₁.IsTolerant := h₁.isTolerant ht
        rw [← h₁.store] at hs hrole hacc hr hup
        exact c.refuses_receive name hs.linked ht₁ hrole hacc hr hup
  | adopt c =>
    rcases requireOwned_cases hn hlive with hrefuses | ⟨hlook, heq⟩
    · exact Or.inl (refuses_bind (refuses_bind hrefuses))
    · cases (heq c name w.store).symm.trans htaken
      refine Or.inr (makes_held_new (makes_yields_bind hlook fun w₁ h₁ => ?_))
      have ht₁ : w₁.IsTolerant := h₁.isTolerant ht
      rw [← h₁.store]
      exact c.makes_adopt name z ht₁

end Taken

end Transfer

/-! ## Transfers are atomic -/

/-- No wrapper that exists has lost its object. -/
theorem Reachable.not_isVacant {allowed : State → Step → Prop} {out : Ledger}
    (h : Reachable allowed s out) (z : Id) : ¬ s.world.store.IsVacant z := by
  induction h with
  | initial e c =>
    rintro ⟨n, hn, -⟩
    cases hn
  | @step s out x _ _ ih => exact fun hvacant => ih (s.vacant_after [x] hvacant)

/-- A step that takes over a reference or the ownership of a structure takes exactly that, or it
fails and leaves everything as it was: if the check of the start of shutdown unwinds, if its class
does not know the structure, or if the structure does not own what it is about. -/
theorem transfers_atomic {out : Ledger} (m : Transfer) (h : Reachable State.Proceeds s out)
    (hslot : s.slots.find? source = some (.struct z)) (hn : s.world.store.get? z = some n)
    (hlive : n.live = true) (haccepts : s.accepts (m.step source name) = true) :
    (∀ st slot, s.world.IsTolerant → m.taken name s.world.store z n.entity = some (st, slot) →
      (∀ y ∈ s.world.store.chain z, s.world.store.Accountable y) →
      s.world.store.CanRise (s.world.store.chain z) →
      s.Reaches (m.step source name) st (s.slots.add name slot)) ∧
    (¬ s.world.IsTolerant ∨ m.taken name s.world.store z n.entity = none →
      s.Leaves (m.step source name) name) := by
  have hplan := m.plan_step hslot name
  have hnot := State.not_refuses_of_accepts haccepts hplan
  refine ⟨fun st slot ht htaken hacc hr => ?_, fun hfail => ?_⟩
  · have hs := (h.undisturbed ht.not_isClosed).balanced.sound
    have hname := Option.isNone_iff_eq_none.mp (State.nameIsFree_of_accepts haccepts hplan)
    obtain ⟨v, hmade⟩ :=
      (m.makes_act (w := s.begun) hs ht hn hlive htaken hacc hr).resolve_left hnot
    exact State.reaches_of_makes hplan rfl hname hmade
  · have hvacant : ¬ n.IsVacant := fun hv => h.not_isVacant z ⟨n, hn, hv⟩
    exact State.leaves_of_fails haccepts hplan
      ((m.fails_act (w := s.begun) hn hlive hvacant hfail).resolve_left hnot)

/-- A structure of the far side has got a proxy and the proxy a wrapper, and then the structure has
lost some members. -/
def wrappedProxy (cleared : List String) : List Step :=
  [.create (.sharedFar ⟨7, 9, 1⟩ none []) "f", .shared (.receive .child (some "f") "p"),
    .shared (.wrap .child (some "p") "w")] ++
    cleared.map fun member => .struct (.clear "f" member)

/-- What these steps lead to. -/
def proxyWrapped (cleared : List String) : State :=
  (State.initial {} (some .default)).after (wrappedProxy cleared)

/-- The wrapper of a proxy. -/
def proxyWrapper : Node :=
  ⟨"w", .sharedWrapper ⟨.child, 1, SharedClass.child.newStruct, Count.zero.succ⟩, true⟩

/-- The wrapper of a proxy gets a proxy of the parent class in turn. -/
theorem transfers_atomic_received :
    (proxyWrapped []).Reaches ((Transfer.receive .client).step "w" "q")
      ((proxyWrapped []).world.store.push
        ⟨"q", .sharedProxy ⟨.client, 2, Count.zero.succ⟩, true⟩)
      ((proxyWrapped []).slots.add "q"
        (.handle (proxyWrapped []).world.store.size .client)) := by
  have hreachable :=
    ((Reachable.initial {} (some .default)).after (wrappedProxy []) rfl).proceeds
  have hslot : (proxyWrapped []).slots.find? "w" = some (.struct 2) := rfl
  have hn : (proxyWrapped []).world.store.get? 2 = some proxyWrapper := rfl
  have ht : (proxyWrapped []).world.IsTolerant := by
    rintro ⟨⟩
  have hchain : (proxyWrapped []).world.store.chain 2 = [2, 1, 0] := rfl
  have hrise : (proxyWrapped []).world.store.CanRise
      ((proxyWrapped []).world.store.chain 2) := by
    rw [hchain]
    exact Store.canRise_cons rfl rfl (Store.canRise_cons rfl rfl
      (Store.canRise_cons rfl rfl (Store.canRise_nil _)))
  exact (transfers_atomic (.receive .client) hreachable hslot hn rfl rfl).1 _ _ ht rfl
    (fun y _ => Store.accountable_of_nodes rfl y) hrise

/-- The members of the structure alone are not enough: where one below it takes no references but
gives them up, it loses one that was not to be taken. -/
theorem not_transfers_atomic_cleared :
    ¬ ∀ s out (m : Transfer) source name z n st slot, Reachable State.Proceeds s out →
      s.slots.find? source = some (.struct z) → s.world.store.get? z = some n → n.live = true →
      s.accepts (m.step source name) = true → s.world.isShutdown = false →
      s.world.store.Accountable z → s.world.store.CanRise (s.world.store.chain z) →
      m.taken name s.world.store z n.entity = some (st, slot) →
      s.Reaches (m.step source name) st (s.slots.add name slot) := by
  intro h
  have hreachable :=
    ((Reachable.initial {} (some .default)).after (wrappedProxy ["add_ref"]) rfl).proceeds
  have hslot : (proxyWrapped ["add_ref"]).slots.find? "w" = some (.struct 2) := rfl
  have hn : (proxyWrapped ["add_ref"]).world.store.get? 2 = some proxyWrapper := rfl
  have hacc : (proxyWrapped ["add_ref"]).world.store.Accountable 2 := fun n hn' =>
    Option.some.inj (hn.symm.trans hn') ▸ rfl
  have hchain : (proxyWrapped ["add_ref"]).world.store.chain 2 = [2, 1, 0] := rfl
  have hrise : (proxyWrapped ["add_ref"]).world.store.CanRise
      ((proxyWrapped ["add_ref"]).world.store.chain 2) := by
    rw [hchain]
    exact Store.canRise_cons rfl rfl (Store.canRise_cons rfl rfl
      (Store.canRise_cons rfl rfl (Store.canRise_nil _)))
  have hreaches := h (proxyWrapped ["add_ref"]) _ (.receive .client) "w" "q" 2 proxyWrapper _ _
    hreachable hslot hn rfl rfl rfl hacc hrise rfl
  have hafter : ((proxyWrapped ["add_ref"]).step
      ((Transfer.receive .client).step "w" "q")).2.world.store.references 0 = 0 := rfl
  have hkept : ((proxyWrapped ["add_ref"]).step
      ((Transfer.receive .client).step "w" "q")).2.world.store.references 0 = 1 := by
    rw [hreaches.world.store]
    rfl
  exact absurd (hkept.symm.trans hafter) (by decide)

end ObjectBoundary.Session
