import ObjectBoundary.Proofs.Ownership.Deletions
import ObjectBoundary.Proofs.Ownership.Fate
import ObjectBoundary.Proofs.Session.Bypassing
import ObjectBoundary.Proofs.Session.History

/-!
# An account of deletions

A structure of the far side with a single owner is deleted by a direct call of its function `del`,
and by every proxy that is destroyed while it holds the structure. Both are counted over several
steps, and nothing else deletes it: not a proxy that was emptied, nor the step that emptied it.

* `Step.strikes`: what each step strikes.
* `State.perished`: the proxies that are destroyed by a step with a structure that they hold.
* `State.directDeletions`, `State.proxyDeletions`: the two accounts of several steps.
* `State.Harmless`: steps that delete nothing.
* `deletions_accounted`: the accounts of a new structure.
-/

namespace ObjectBoundary.Session

open ObjectBoundary Act

variable {slots : Slots} {s : State} {w : World} {p : Plan} {x : Step} {out : Ledger} {f q : Id}

/-! ## What steps strike -/

theorem strikes_answering {act : Act Value} {r : Option Id} (h : Strikes act w r) :
    Strikes (Plan.answering act).act w r :=
  h.bind fun _ _ => respects_pure _

theorem strikes_holding {α : Type} {act : Act α} {g : α → Option Id} {slot : Id → Slot}
    {r : Option Id} (h : Strikes act w r) :
    Strikes (act >>= fun a => holding slot (g a)) w r :=
  h.bind fun _ _ => respects_holding _ _

theorem strikes_answering_quiet {act : Act Value} (h : Respects World.Quiet act w) :
    Strikes (Plan.answering act).act w none :=
  strikes_answering (strikes_of_quiet h)

theorem Creation.strikes {c : Creation} {name : String} (h : c.plan name = .ok p) :
    Strikes p.act w none := by
  obtain ⟨e, slot, he, rfl⟩ := planned h
  have hnew : (Node.mk name e true).deletions = 0 := by
    cases c with
    | ownedObject object =>
      dsimp only [Creation.entity] at he
      cases hview : Creation.ownedView object.behavior with
      | none => rw [hview] at he; cases he
      | some view => rw [hview] at he; cases he; rfl
    | _ => cases he; rfl
  exact ends_make fun v => World.idle_push hnew (Node.lastHeld?_of_live rfl)

theorem HandleStep.strikes {x : HandleStep} (h : x.plan s.slots = .ok p) :
    Strikes p.act s.world (s.struck (.handle x)) := by
  have hbypassing (hstruck : s.struck (.handle x) = none)
      (hdrop : ∀ source, x ≠ .drop source) :
      Strikes p.act s.world (s.struck (.handle x)) := by
    rw [hstruck]
    refine strikes_of_idle (idle_of_bypasses fun r ho hs _ => ?_)
    exact HandleStep.bypasses ho hs h fun source hx => absurd hx (hdrop source)
  cases planned h with
  | drop source slot act hslot hact =>
    rw [State.struck_of_drop hslot]
    apply strikes_answering
    have hsilently {act : Act Unit} {r : Option Id} (h : Strikes act s.world r) :
        Strikes (silently act) s.world r := h.bind fun _ _ => respects_pure _
    apply hsilently
    cases slot with
    | handle o view =>
      cases hact
      exact strikes_of_idle (idle_of_bypasses fun r ho hs _ => bypasses_drop ho hs o)
    | owner o view => cases hact; exact strikes_dispose o
    | loan y => cases hact; exact strikes_dispose y
    | _ => cases hact
  | _ => exact hbypassing rfl fun _ hx => HandleStep.noConfusion hx

theorem SharedStep.strikes {x : SharedStep} (h : x.plan slots = .ok p) :
    Strikes p.act w none :=
  strikes_of_idle (idle_of_bypasses fun _ ho hs _ => SharedStep.bypasses ho hs h)

theorem OwnedStep.strikes {x : OwnedStep} (h : x.plan s.slots = .ok p) :
    Strikes p.act s.world (s.struck (.owned x)) := by
  cases planned h with
  | null x source name hx hnull =>
    rw [State.struck_of_null hx hnull]
    exact strikes_of_quiet (respects_pure _)
  | give c source name o => exact strikes_holding (g := some) (strikes_of_idle (idle_cross rfl))
  | lend c source name o => exact strikes_holding (g := some) (strikes_of_idle (idle_cross rfl))
  | loanStruct source name y =>
    exact strikes_holding (g := fun _ => some y)
      (strikes_of_quiet (respects_discard (respects_entity y)))
  | takeBack c source name y => exact strikes_holding (g := id) (c.strikes_takeBack y)
  | borrowNull => exact strikes_answering_quiet (respects_pure _)
  | borrow c source y =>
    exact strikes_answering_quiet
      (respects_bind (c.respects_borrow y) fun _ _ _ => respects_asName _)
  | inspect c source y =>
    refine strikes_answering_quiet (respects_bind (respects_ownedInspect c y) fun a _ _ => ?_)
    cases a <;> exact respects_pure _
  | adopt c source name y =>
    refine strikes_bind_of_quiet respects_requireOwned fun _ _ _ => ?_
    exact strikes_holding (g := some) (strikes_of_idle (idle_cross rfl))
  | surrender c source name o ho =>
    rw [State.struck_of_surrender name ho]
    exact strikes_holding (g := id) (c.strikes_surrender o)
  | reveal c source name o =>
    exact strikes_holding (g := id) (strikes_of_quiet (c.respects_reveal o))
  | takeTarget source name o =>
    exact strikes_holding (g := id) (strikes_of_idle (ProxyClass.idle_takeTarget o))

/-- What a structure says about itself tells of no deletion. -/
theorem idle_change (y : Id) (g : Structure → Structure) :
    Respects World.Idle (StructStep.change y g) w := by
  apply respects_entity_bind
  intro n hn hlive
  cases ht : n.entity.struct? with
  | none => exact respects_refuse _
  | some t =>
    obtain ⟨name, e, live⟩ := n
    have hput : Respects World.Idle (put y (e.withStruct (g t))) w := by
      refine respects_modify (World.idle_modify hn ?_ ?_)
      · cases e <;> rfl
      · cases e <;> rfl
    exact hput

/-- A call of a function of a structure, which is named, strikes what `del` strikes. -/
theorem strikes_call_position (hs : w.store.Sound) {y : Id} {member : String} {r : Option Id} :
    Strikes (StructStep.position y member >>= fun i => call y i r) w
      (if member = "del" then w.store.callee? y Layout.del r else none) := by
  apply ends_position_bind
  intro n t i hn ht hi
  rcases Entity.role_of_struct? ht with hr | hr
  · have hmember : member ≠ "del" := by
      rintro rfl
      cases ((hs.formed y n hn).not_deletes hr ht).symm.trans hi
    rw [if_neg hmember]
    exact strikes_of_idle (idle_of_bypasses fun r ho hs _ => bypasses_call ho hs ⟨n, hn, hr⟩ i _)
  · have hdel := Layout.position_del_of_owned ((hs.formed y n hn).isOwned hr ht) hi
    have hcall := strikes_call ⟨n, hn, hr⟩ i (r := r)
    simp only [hdel] at hcall
    exact hcall

theorem StructStep.strikes {x : StructStep} (h : x.plan s.slots = .ok p)
    (hs : s.world.store.Sound) : Strikes p.act s.world (s.struck (.struct x)) := by
  cases planned h with
  | call source member r y r' hy hr =>
    rw [State.struck_of_call hy hr]
    apply strikes_answering
    rw [← bind_assoc]
    exact (strikes_call_position hs).bind fun _ _ => respects_pure _
  | clear source member y =>
    apply strikes_answering
    refine strikes_bind_of_quiet (respects_position y member) fun i _ _ => ?_
    exact strikes_of_idle (respects_silently (idle_change y _))
  | resize source n y =>
    exact strikes_answering (strikes_of_idle (respects_silently (idle_change y _)))
  | size source y =>
    exact strikes_answering_quiet (respects_map (respects_struct y))
  | object c source y =>
    exact strikes_answering_quiet
      (respects_bind (respects_objectOf _ y) fun _ _ _ => respects_asName _)

theorem DeviceStep.strikes {x : DeviceStep} {source : String} (h : x.plan slots source = .ok p) :
    Strikes p.act w none := by
  obtain ⟨y, -, rfl⟩ := planned h
  apply strikes_answering
  have hbypassing {act : Act Value}
      (h : ∀ r, r ≠ .device → Respects (World.Bypasses r) act w) : Strikes act w none :=
    strikes_of_idle (idle_of_bypasses fun r _ _ hr => h r hr)
  cases x with
  | countUp => exact hbypassing fun r hr => respects_silently (bypasses_countUp hr)
  | countDown => exact hbypassing fun r hr => respects_asFlag (bypasses_countDown hr)
  | countAsk question => exact strikes_of_quiet (respects_asFlag (respects_countAsk question y))
  | signal => exact hbypassing fun r hr => respects_silently (bypasses_checkerSignal hr)
  | isShutdown => exact strikes_of_quiet (respects_asFlag (respects_checker y))
  | require =>
    exact strikes_of_quiet (respects_silently (respects_bind (respects_checker y)
      fun _ _ _ => respects_require _ _))

/-- A step strikes one entity or none, as was foreseen. -/
theorem Step.strikes {x : Step} (h : x.plan s.slots = .ok p) (hs : s.world.store.Sound) :
    Strikes p.act s.world (s.struck x) := by
  cases x with
  | create c name => exact Creation.strikes h
  | handle step => exact HandleStep.strikes h
  | shared step => exact SharedStep.strikes h
  | owned step => exact OwnedStep.strikes h
  | struct step => exact StructStep.strikes h hs
  | device step source => exact DeviceStep.strikes h
  | process step =>
    cases h
    apply strikes_answering
    refine strikes_of_idle (step.respects_act World.Quiet.idle ?_)
    intro w w' _ hstore _
    exact World.idle_of_store hstore

/-- What a step strikes is destroyed with all that it owns, and it destroys nothing else that
matters here. -/
theorem State.strikes_step (hb : Balanced s out) (hx : s.Undisturbed x) :
    s.begun.Strikes (s.struck x) (s.step x).2.world := by
  obtain ⟨p, hp, -, hcases⟩ := proceeds_cases hx.1
  have hstrikes : Strikes p.act s.begun (s.struck x) := by
    have := Step.strikes (s := ⟨s.begun, s.slots⟩) hp hb.sound
    cases x <;> exact this
  rcases hcases with ⟨value, slot, w', hact, -, hstep⟩ | ⟨failure, w', hact, houtcome, hstep⟩
  · rw [hstep]
    exact ends_of_done hstrikes hact
  · have hworld : (s.step x).2.world = w' := by rw [hstep]
    rw [hworld]
    rcases ends_of_unwound hstrikes hact with hd | hw
    · exact absurd (hworld ▸ hd) (hx.2 failure houtcome)
    · exact hw

/-! ## Accounts -/

namespace State

/-- A step calls the function `del` of some structure directly, with this one as the receiver. -/
def deletesDirectly (s : State) (f : Id) : Step → Bool
  | .struct (.call source member r) =>
    decide (member = "del") && decide (s.calleeAt source Layout.del r = some f)
  | _ => false

/-- The proxies that are destroyed by a step with a structure that they hold. -/
def perished (s : State) (f : Id) (x : Step) : Finset Id :=
  s.world.store.perished (s.step x).2.world.store f

/-- How many of several steps, one after the other, delete a structure directly. -/
def directDeletions (s : State) (f : Id) : List Step → Nat
  | [] => 0
  | x :: xs => (s.deletesDirectly f x).toNat + (s.step x).2.directDeletions f xs

/-- How many proxies are destroyed, in several steps, with a structure that they hold and that can
be deleted. -/
def proxyDeletions (s : State) (f : Id) : List Step → Nat
  | [] => 0
  | x :: xs => (if s.world.store.isSet f Layout.del then (s.perished f x).card else 0) +
    (s.step x).2.proxyDeletions f xs

/-- A step takes the structure out of a proxy: by a class that knows the proxy, which is destroyed,
or from the proxy itself, which stays. -/
inductive Hollows (s : State) (q : Id) : Step → Prop
  | surrender {c : ProxyClass} {source : Option String} {name : String} {n : Node}
    {v : OwnedProxy} : s.slots.ownedAt source = some q → s.world.store.get? q = some n →
    n.entity = .ownedProxy v → c.Recovers v.cls → s.Hollows q (.owned (.surrender c source name))
  | takeTarget {source name : String} :
    s.slots.ownedAt source = some q → s.Hollows q (.owned (.takeTarget source name))

/-- Steps that delete nothing: taking a structure out, looking for it, asking for a value, calling
another function than `del`, and giving up a proxy from which the structure was taken. -/
inductive Harmless (s : State) : Step → Prop
  | hollows {q : Id} {x : Step} : s.Hollows q x → s.Harmless x
  | reveal {c : ProxyClass} {source : Option String} {name : String} :
    s.Harmless (.owned (.reveal c source name))
  | value {source : String} : s.Harmless (.handle (.value source))
  | otherValue {source : String} : s.Harmless (.handle (.otherValue source))
  | member {source name : String} {r : Receiver} :
    name ≠ "del" → s.Harmless (.struct (.call source name r))
  | drop {source : String} {q : Id} :
    s.slots.ownedAt source = some q → s.world.store.IsHollow q → s.Harmless (.handle (.drop source))

theorem struck_of_recovers {c : ProxyClass} {source : Option String} (name : String) {n : Node}
    {v : OwnedProxy} (hq : s.slots.ownedAt source = some q) (hn : s.world.store.get? q = some n)
    (he : n.entity = .ownedProxy v) (hc : c.Recovers v.cls) :
    s.struck (.owned (.surrender c source name)) = none ∧
      s.emptied (.owned (.surrender c source name)) = some q := by
  have hempties : c.empties s.world.store q = true := by
    rw [ProxyClass.empties, hn, Option.any_some, he]
    exact decide_eq_true hc
  constructor
  · rw [struck, hq, Option.filter_some, hempties]
    rfl
  · rw [emptied, hq, Option.filter_some, if_pos hempties]

end State

section Steps

variable (hb : Balanced s out)
include hb

/-- A structure of the far side is struck by direct calls only. -/
theorem struck_far_iff (hf : s.world.store.IsOwnedFar f) :
    s.struck x = some f ↔ s.deletesDirectly f x = true := by
  have hnot (hobject : s.world.store.HasRole f .ownedObject) : False := by
    cases hf.hasRole.unique hobject
  have hneither {x : Step} (hstruck : s.struck x = none) (hdirect : s.deletesDirectly f x = false) :
      s.struck x = some f ↔ s.deletesDirectly f x = true := by
    rw [hstruck, hdirect]
    exact iff_of_false (Option.some_ne_none f).symm Bool.false_ne_true
  cases x with
  | handle step =>
    cases step with
    | drop source =>
      refine ⟨fun hr => ?_, fun hd => absurd hd Bool.false_ne_true⟩
      obtain ⟨slot, hfind, hgiven⟩ := Option.bind_eq_some_iff.mp hr
      have hfits := hb.fit.find? hfind
      cases slot with
      | owner o view =>
        cases hgiven
        exact (hnot hfits).elim
      | loan y =>
        cases hgiven
        obtain ⟨n, a, hn, he⟩ := hf
        obtain ⟨m, v, hm, he', -⟩ := hfits
        cases hn.symm.trans hm
        cases he.symm.trans he'
      | _ => cases hgiven
    | _ => exact hneither rfl rfl
  | owned step =>
    cases step with
    | surrender c source name =>
      refine ⟨fun hr => ?_, fun hd => absurd hd Bool.false_ne_true⟩
      exact (hnot (hasRole_of_ownedAt hb (Option.filter_eq_some_iff.mp hr).1)).elim
    | _ => exact hneither rfl rfl
  | struct step =>
    cases step with
    | call source member r =>
      rw [State.struck, State.deletesDirectly, Option.ite_none_right_eq_some, Bool.and_eq_true,
        decide_eq_true_eq, decide_eq_true_eq]
    | _ => exact hneither rfl rfl
  | _ => exact hneither rfl rfl

variable (hx : s.Undisturbed x)
include hx

theorem continues_step : s.world.store.Continues (s.step x).2.world.store := by
  obtain ⟨δ, hmoved⟩ := hb.moved hx
  exact hmoved.turns.continues

/-- A step deletes a structure directly, or by a proxy that perishes with it. -/
theorem deletions_step (hf : s.world.store.IsOwnedFar f) :
    (s.step x).2.world.store.deletions f = s.world.store.deletions f +
      (s.deletesDirectly f x).toNat +
        if s.world.store.isSet f Layout.del then (s.perished f x).card else 0 := by
  have hstrikes := (State.strikes_step hb hx).deletions hb.sound.linked hf
  have hdirect : (if s.struck x = some f then 1 else 0) = (s.deletesDirectly f x).toNat := by
    simp only [struck_far_iff hb hf]
    cases s.deletesDirectly f x <;> rfl
  rw [hdirect] at hstrikes
  exact hstrikes

/-- What is struck alone, or nothing, takes no structure of the far side along. -/
theorem harmless_step (hf : s.world.store.IsOwnedFar f) (hharmless : s.Harmless x) :
    (s.step x).2.world.store.deletions f = s.world.store.deletions f ∧ s.perished f x = ∅ := by
  have hstrikes := State.strikes_step hb hx
  suffices hnone : s.deletesDirectly f x = false ∧ s.perished f x = ∅ by
    rw [deletions_step hb hx hf, hnone.1, hnone.2]
    simp
  have hidle (h : s.struck x = none) : s.perished f x = ∅ := by
    rw [h] at hstrikes
    exact World.Idle.perished hstrikes f
  cases hharmless with
  | hollows h =>
    cases h with
    | surrender hq hn he hc => exact ⟨rfl, hidle (State.struck_of_recovers _ hq hn he hc).1⟩
    | takeTarget => exact ⟨rfl, hidle rfl⟩
  | reveal => exact ⟨rfl, hidle rfl⟩
  | value => exact ⟨rfl, hidle rfl⟩
  | otherValue => exact ⟨rfl, hidle rfl⟩
  | member hmember =>
    refine ⟨?_, hidle (if_neg hmember)⟩
    rw [State.deletesDirectly, decide_eq_false hmember]
    rfl
  | @drop source q hq hhollow =>
    have hstruck : s.struck (.handle (.drop source)) = some q := by
      obtain ⟨slot, hslot, howned⟩ := Option.bind_eq_some_iff.mp hq
      obtain ⟨view, rfl⟩ := owned?_eq_some howned
      cases howned
      rw [State.struck, show s.slots.find? source = _ from hslot]
      rfl
    rw [hstruck] at hstrikes
    exact ⟨rfl, hstrikes.perished_of_isHollow hb.sound.linked hhollow f⟩

/-- A proxy whose structure is taken out is hollow. -/
theorem isHollow_step (hk : Kept s) (hhollows : s.Hollows q x) :
    (s.step x).2.world.store.IsHollow q := by
  cases hhollows with
  | @surrender c source name n v hq hn he hc =>
    obtain ⟨hstruck, hemptied⟩ := State.struck_of_recovers name hq hn he hc
    have hstrikes := State.strikes_step hb hx
    rw [hstruck] at hstrikes
    have hidle : s.begun.Idle _ := hstrikes
    obtain ⟨-, δ, hcustody⟩ := hb.kept_step hk hx
    have hgone : q ∈ s.gone (.owned (.surrender c source name)) := by
      rw [State.gone, hemptied]
      exact List.mem_append_right _ (List.mem_singleton_self q)
    obtain ⟨m, hm, hlive⟩ := hcustody.gone q hgone
    cases hn.symm.trans hm
    have hdead := (isLive_step_iff hb hk hx hn hlive (by rw [he]; rfl)).not_left.mpr hgone
    have hheld : (s.step (.owned (.surrender c source name))).2.world.store.lastHeld? q = none :=
      (hidle.lastHeld? q).trans ((Store.lastHeld?_eq hn).trans (Node.lastHeld?_of_live hlive))
    obtain ⟨⟨label, e, live⟩, hn', hcont⟩ := continues_step hb hx q n hn
    have hentity := hcont.entity
    rw [he] at hentity
    cases e with
    | ownedProxy v' =>
      refine ⟨_, v', hn', rfl, ?_⟩
      cases live with
      | false => exact (Store.lastHeld?_eq hn').symm.trans hheld
      | true => exact (hdead ⟨_, hn', rfl⟩).elim
    | _ => exact hentity.elim
  | @takeTarget source name hq =>
    obtain ⟨slot, hslot, howned⟩ := Option.bind_eq_some_iff.mp hq
    obtain ⟨view, rfl⟩ := owned?_eq_some howned
    cases howned
    obtain ⟨p, hp, -, hcases⟩ := State.proceeds_cases hx.1
    have hplan : OwnedStep.plan s.slots (.takeTarget source name) = .ok p := hp
    obtain rfl : p = .making name (ProxyClass.takeTarget q >>= holding .struct) := by
      cases OwnedStep.planned hplan with
      | null _ _ _ hx => cases hx
      | takeTarget _ _ o view' ho =>
        cases (Slots.argument_of_find? hslot).symm.trans ho
        rfl
    have hends : Ends (ProxyClass.takeTarget q >>= holding .struct) s.begun
        (fun _ w' => w'.store.IsHollow q) fun _ _ => False := by
      refine ends_bind ProxyClass.ends_takeTarget_hollow fun a w' h => ?_
      exact ends_holding fun _ => h
    rcases hcases with ⟨value, slot, w', hact, -, hstep⟩ | ⟨failure, w', hact, -, -⟩
    · rw [hstep]
      exact ends_of_done hends hact
    · exact (ends_of_unwound hends hact).elim

end Steps

/-! ## Several steps -/

section Along

variable (hb : Balanced s out) {xs : List Step} (hxs : s.All State.Undisturbed xs)
include hb hxs

/-- The two accounts tell of all deletions. -/
theorem deletions_after (hf : s.world.store.IsOwnedFar f) :
    (s.after xs).world.store.deletions f =
      s.world.store.deletions f + s.directDeletions f xs + s.proxyDeletions f xs := by
  induction xs generalizing s out with
  | nil => rfl
  | cons x xs ih =>
    obtain ⟨hx, hxs⟩ := hxs
    have hrest := ih (hb.step hx) hxs (hf.mono (continues_step hb hx))
    have hfirst := deletions_step hb hx hf
    show ((s.step x).2.after xs).world.store.deletions f = _
    rw [State.directDeletions, State.proxyDeletions]
    omega

/-- A hollow proxy never perishes with a structure. -/
theorem notMem_perished_after (hq : s.world.store.IsHollow q) (hx : (s.after xs).Undisturbed x) :
    q ∉ (s.after xs).perished f x :=
  ((hq.mono (hb.continues hxs)).mono (continues_step (hb.along hxs) hx)).notMem_perished

end Along

/-! ## A new structure -/

/-- A new structure of the far side was not deleted yet. -/
theorem isOwnedFar_created {answers : FarAnswers} {size : Option UInt64} {null : List String}
    {name : String} (hnew : s.isDone (.create (.ownedFar answers size null) name) = true) :
    (s.step (.create (.ownedFar answers size null) name)).2.world.store.IsOwnedFar
        s.world.store.size ∧
      (s.step (.create (.ownedFar answers size null) name)).2.world.store.deletions
        s.world.store.size = 0 := by
  obtain ⟨p, hp, -, hcases⟩ := State.proceeds_cases (State.undisturbed_of_isDone hnew).1
  cases hp
  have hends : Ends (Plan.making name (do
      let x ← create name (.ownedFar ⟨answers, Creation.farStruct Layout.ownedChild size null, 0⟩)
      if (Creation.ownedFar answers size null).isDevice then pure (.null, .struct x)
        else holding .struct (some x))).act s.begun
      (fun _ w' => w'.store.IsOwnedFar s.world.store.size ∧
        w'.store.deletions s.world.store.size = 0) fun _ _ => False := by
    refine ends_make fun v => ?_
    have hsize := Store.get?_push_size s.world.store
      ⟨name, .ownedFar ⟨answers, Creation.farStruct Layout.ownedChild size null, 0⟩, true⟩
    exact ⟨⟨_, _, hsize, rfl⟩, Store.deletions_eq hsize⟩
  rcases hcases with ⟨value, slot, w', hact, -, hstep⟩ | ⟨failure, w', hact, -, -⟩
  · rw [hstep]
    exact ends_of_done hends hact
  · exact (ends_of_unwound hends hact).elim

/-- How the deletions of a structure are accounted for after several steps, and what has no part in
them. -/
structure State.Accounts (s : State) (f : Id) (xs : List Step) : Prop where
  /-- The structure was deleted as often as its function `del` was called directly and as proxies
  perished with it while it could be deleted. -/
  deletions : (s.after xs).world.store.deletions f =
    s.directDeletions f xs + s.proxyDeletions f xs
  harmless : ∀ x, (s.after xs).Undisturbed x → (s.after xs).Harmless x →
    ((s.after xs).step x).2.world.store.deletions f = (s.after xs).world.store.deletions f ∧
      (s.after xs).perished f x = ∅
  /-- A proxy whose structure was taken out never deletes it. -/
  hollow : ∀ q x ys y, (s.after xs).Undisturbed x → (s.after xs).Hollows q x →
    ((s.after xs).step x).2.All State.Undisturbed ys →
    (((s.after xs).step x).2.after ys).Undisturbed y →
      q ∉ (((s.after xs).step x).2.after ys).perished f y
  /-- A class that does not know a proxy destroys it, and so deletes its structure once. -/
  unknown : ∀ (c : ProxyClass) q n v, (s.after xs).world.store.get? q = some n →
    n.entity = .ownedProxy v → v.target = some f → ¬ c.Recovers v.cls →
      Ends (c.surrender q) (s.after xs).world
        (fun _ w => w.store.deletions f = (s.after xs).world.store.deletions f +
          if (s.after xs).world.store.isSet f Layout.del then 1 else 0)
        fun e w => World.Disturbed e w ∨
          w.store.deletions f = (s.after xs).world.store.deletions f +
            if (s.after xs).world.store.isSet f Layout.del then 1 else 0

/-- However a structure of the far side was made and whatever happens, all its deletions are
accounted for, unless the check of the start of shutdown fails. -/
theorem deletions_accounted {answers : FarAnswers} {size : Option UInt64} {null : List String}
    {name : String} {xs : List Step} (h : Reachable State.Undisturbed s out)
    (hnew : s.isDone (.create (.ownedFar answers size null) name) = true)
    (hxs : (s.step (.create (.ownedFar answers size null) name)).2.All State.Undisturbed xs) :
    (s.step (.create (.ownedFar answers size null) name)).2.Accounts s.world.store.size xs := by
  have h₀ := h.step _ (State.undisturbed_of_isDone hnew)
  obtain ⟨hf₀, hzero⟩ := isOwnedFar_created hnew
  have ht := h₀.along hxs
  have hf := hf₀.mono (h₀.balanced.continues hxs)
  constructor
  · rw [deletions_after h₀.balanced hxs hf₀, hzero, Nat.zero_add]
  · intro x hx hharmless
    exact harmless_step ht.balanced hx hf hharmless
  · intro q x ys y hx hhollows hys hy
    have hhollow := isHollow_step ht.balanced hx ht.kept hhollows
    exact notMem_perished_after (ht.balanced.step hx) hys hhollow hy
  · intro c q n v hn he hv hc
    exact ProxyClass.ends_surrender_unknown ht.balanced.sound.linked hf hn he hv hc

/-- Of two proxies of a structure one is destroyed with it and one gives it back, and then it is
deleted directly: that is twice. -/
theorem deletions_accounted_twoProxies :
    let s := State.initial {} none
    let s₀ := (s.step (.create (.ownedFar ⟨1, 2, 1⟩ none []) "f")).2
    let xs : List Step :=
      [.owned (.adopt .child "f" "p"), .owned (.adopt .client "f" "q"), .handle (.drop "q"),
        .owned (.surrender .child "p" "g"), .struct (.call "f" "del" .itself)]
    s₀.Accounts 0 xs ∧ (s₀.after xs).world.store.deletions 0 = 2 := by
  intro s s₀ xs
  have hnew : s.isDone (.create (.ownedFar ⟨1, 2, 1⟩ none []) "f") = true := by decide
  have hdone : s₀.areDone xs = true := by decide
  exact ⟨deletions_accounted (.initial {} none) hnew (State.all_of_areDone hdone), by decide⟩

end ObjectBoundary.Session
