import ObjectBoundary.Proofs.Acts.Towers
import ObjectBoundary.Proofs.Session.Tracking
import ObjectBoundary.Proofs.Session.Undisturbed

/-!
# Calls that go down a tower

A tower of wrappers and proxies is transparent: through its top, calls reach the bottom and answers
come back, and nothing changes on the way.

* `State.Replies`: a step answers, and nothing else.
* `State.AsksValue`, `State.AsksReferences`: the ways to ask.
* `State.Transparent`: what is answered on top of a tower.
* `towers_transparent`: every tower whose structures have their members is transparent.
* `not_towers_transparent_silenced`: it takes the members of all structures in between.
-/

namespace ObjectBoundary.Session

open ObjectBoundary

variable {s : State} {out : Ledger} {x : Id} {e : Entity} {v : Value}

/-! ## Steps that only answer -/

/-- A step answers and leaves all entities and slots alone. -/
structure State.Replies (s : State) (x : Step) (v : Value) : Prop where
  outcome : (s.step x).1.outcome = .done v
  store : (s.step x).2.world.store = s.world.store
  slots : (s.step x).2.slots = s.slots

theorem replies_of_yields {step : Step} {act : Act Value}
    (hp : step.plan s.slots = .ok (.answering act)) (h : Act.Yields act s.begun v) :
    s.Replies step v := by
  obtain ⟨w', hw', hq⟩ := h .normal
  have hact : (Plan.answering act).act .normal s.begun = (.done (v, .null), w') := by
    show (act >>= fun v => pure (v, Slot.null)) .normal s.begun = _
    rw [Act.bind_apply, hw']
    rfl
  have hstep := State.step_of_done hp rfl hact
  refine ⟨?_, ?_, ?_⟩ <;> rw [hstep]
  · rfl
  · exact hq.store
  · rfl

/-- A number other than zero stands for yes. -/
def Value.isYes : Value → Bool
  | .flag b => b
  | .number n => n != 0
  | _ => false

theorem isYes_number (a : Int32) : (Value.number a.toInt).isYes = (a != 0) := by
  show (a.toInt != 0) = (a != 0)
  rw [Bool.eq_iff_iff, bne_iff_ne, bne_iff_ne, ne_eq, ne_eq, ← Int32.toInt_inj]
  rfl

/-! ## Ways to ask -/

namespace State

/-- A step that asks for a value, through a handle or through a member of a structure. -/
inductive AsksValue (s : State) : Step → Id → Prop
  | handle {source : String} {x : Id} {view : SharedInterface} :
    s.slots.find? source = some (.handle x view) → view = .client ∨ view = .child →
      s.AsksValue (.handle (.value source)) x
  | call {source : String} {x : Id} :
    s.slots.find? source = some (.struct x) → s.world.store.HasRole x .sharedStructure →
      s.AsksValue (.struct (.call source "get_value" .itself)) x

/-- A step that asks about references, through a handle, through a proxy or through a member of a
structure. -/
inductive AsksReferences (s : State) (q : Question) : Step → Id → Prop
  | handle {source : String} {x : Id} {view : SharedInterface} :
    s.slots.find? source = some (.handle x view) → s.AsksReferences q (.handle (.ask q source)) x
  | target {source name : String} {o : Id} {view : SharedInterface} {p : SharedProxy} :
    s.slots.find? source = some (.handle o view) →
      s.world.store.get? o = some ⟨name, .sharedProxy p, true⟩ →
      s.AsksReferences q (.shared (.target (.ask q) source)) p.target
  | call {source : String} {x : Id} :
    s.slots.find? source = some (.struct x) → s.world.store.HasRole x .sharedStructure →
      s.AsksReferences q (.struct (.call source (Act.questionName q) .itself)) x

/-- Through an entity on top of a tower the bottom is reached: its value, what it says about its
references, also if layers in between are asked, and its other value unless a wrapper does not know
it. -/
structure Transparent (s : State) (x : Id) (bottom : Entity) : Prop where
  value : ∃ r, bottom.value? 0 = some r ∧
    ∀ step, s.AsksValue step x → s.Replies step (.number r.toInt)
  references : ∀ y ∈ s.world.store.chain x, ∀ q step, s.AsksReferences q step y →
    ∃ v, v.isYes = bottom.tells q ∧ s.Replies step v
  report : ∀ y ∈ s.world.store.chain x, ∀ source n v,
    s.slots.find? source = some (.struct y) → s.world.store.get? y = some n →
      n.entity = .sharedWrapper v →
      ∃ r, r.isUnique = bottom.tells .unique ∧ r.isReferenced = bottom.tells .referenced ∧
        s.Replies (.shared (.inspect v.cls source)) (.sharedReport r)
  /-- A proxy finds that a structure of the client class lacks the member as long as the structure
  does not record a size beyond its end. -/
  otherValue : ∀ source, s.slots.find? source = some (.handle x .child) →
    s.world.store.IsChild x →
    (s.world.store.ChildOnly x → ∃ r, bottom.value? 1 = some r ∧
      s.Replies (.handle (.otherValue source)) (.number r.toInt)) ∧
    (¬ s.world.store.ChildOnly x → s.world.store.ClientsBounded x →
      s.Replies (.handle (.otherValue source)) (.number 0))

end State

/-! ## Towers -/

/-- A member of an existing structure is called on itself. -/
theorem replies_of_call {source member : String} {n : Node} {t : Structure} {i : Nat}
    {reply : Act.Reply} (hsource : s.slots.find? source = some (.struct x))
    (hn : s.world.store.get? x = some n) (hlive : n.live = true) (ht : n.entity.struct? = some t)
    (hi : t.layout.position? member = some i)
    (hcall : Act.Yields (Act.call x i (some x)) s.begun reply) :
    s.Replies (.struct (.call source member .itself)) (StructStep.replyValue reply) := by
  apply replies_of_yields (plan_call hsource member)
  intro phase
  rw [Act.bind_apply, position_apply (w := s.begun) hn hlive ht hi]
  exact Act.yields_map hcall StructStep.replyValue phase

/-- A structure in a tower has one of two layouts. -/
theorem layout_of_tower (h : s.world.store.Tower x e) (hs : s.world.store.Sound)
    (hr : s.world.store.HasRole x .sharedStructure) :
    ∃ n t, s.world.store.get? x = some n ∧ n.live = true ∧ n.entity.struct? = some t ∧
      (t.layout = Layout.sharedClient ∨ t.layout = Layout.sharedChild) := by
  obtain ⟨n, hn, hrole⟩ := hr
  cases h with
  | object hx _ => cases hn.symm.trans hx; cases hrole
  | proxy hx _ => cases hn.symm.trans hx; cases hrole
  | @far x name f hx _ => exact ⟨_, f.struct, hx, rfl, rfl, Or.inr (hs.formed x _ hx)⟩
  | @wrapper x name v e hx hcls _ =>
    have hlayout : v.struct.layout = v.cls.layout := hs.formed x _ hx
    refine ⟨_, v.struct, hx, rfl, rfl, ?_⟩
    rw [hlayout]
    rcases hcls with hcls | ⟨hcls, -⟩ <;> rw [hcls]
    · exact Or.inl rfl
    · exact Or.inr rfl

section Towers

variable (htower : s.world.store.Tower x e) (hs : s.world.store.Sound)
  (hw : s.world.store.AllWhole x) (ht : s.world.IsTolerant)
include htower hs hw

theorem replies_value (ht : s.world.IsTolerant) :
    ∃ r, e.value? 0 = some r ∧ ∀ step, s.AsksValue step x → s.Replies step (.number r.toInt) := by
  obtain ⟨r, hr, hdelivers⟩ := htower.delivers hs hw
  have hanswer : Act.Yields (Act.answer 0 x) s.begun r := Act.yields_answer hdelivers hs ht
  refine ⟨r, hr, fun step hstep => ?_⟩
  cases hstep with
  | @handle source _ view hsource hview =>
    have hp : Step.plan s.slots (.handle (.value source)) =
        .ok (.answering (asNumber (Act.answer 0 x))) := by
      show (s.slots.argument (some source) >>= _) = _
      simp only [Slots.argument, hsource]
      rcases hview with rfl | rfl <;> rfl
    exact replies_of_yields hp (Act.yields_map hanswer fun r => Value.number r.toInt)
  | @call source _ hsource hrole =>
    obtain ⟨n, t, hn, hlive, hstruct, hlayout⟩ := layout_of_tower htower hs hrole
    obtain ⟨r', hr', hcall⟩ := Act.yields_call_value (w := s.begun) htower hs hw ht hrole
    cases hr.symm.trans hr'
    refine replies_of_call hsource hn hlive hstruct ?_ hcall
    rcases hlayout with hlayout | hlayout <;> rw [hlayout] <;> rfl

theorem State.AsksReferences.replies {q : Question} {step : Step}
    (hstep : s.AsksReferences q step x) : ∃ v, v.isYes = e.tells q ∧ s.Replies step v := by
  cases hstep with
  | @handle source _ view hsource =>
    obtain ⟨a, ha, hask⟩ := Act.yields_ask (w := s.begun) htower hs hw q
    have hp : Step.plan s.slots (.handle (.ask q source)) =
        .ok (.answering (asTruth (Act.ask q x))) := by
      show (s.slots.handle source >>= _) = _
      rw [Slots.handle_of_find? hsource]
      rfl
    refine ⟨.flag (a != 0), ha, replies_of_yields hp ?_⟩
    exact Act.yields_map (hask s.begun (refl_of World.Quiet s.begun)) fun a => Value.flag (a != 0)
  | @target source name o view p hsource hn =>
    refine ⟨.flag (e.tells q), rfl, replies_of_yields (plan_target hsource (.ask q)) ?_⟩
    refine Act.yields_entity_bind hn rfl ?_
    exact Act.yields_map (Act.yields_askTarget (w := s.begun) htower hs hw hn) Value.flag
  | @call source _ hsource hrole =>
    obtain ⟨n, t, hn, hlive, hstruct, hlayout⟩ := layout_of_tower htower hs hrole
    obtain ⟨a, ha, hcall⟩ := Act.yields_call_question (w := s.begun) htower hs hw hrole q
    refine ⟨.number a.toInt, (isYes_number a).trans ha, ?_⟩
    refine replies_of_call hsource hn hlive hstruct ?_ hcall
    rcases hlayout with hlayout | hlayout <;> rw [hlayout] <;> cases q <;> rfl

theorem replies_inspect {source : String} {n : Node} {v : SharedWrapper}
    (hsource : s.slots.find? source = some (.struct x)) (hn : s.world.store.get? x = some n)
    (hv : n.entity = .sharedWrapper v) :
    ∃ r, r.isUnique = e.tells .unique ∧ r.isReferenced = e.tells .referenced ∧
      s.Replies (.shared (.inspect v.cls source)) (.sharedReport r) := by
  obtain ⟨m, hm, hlive⟩ := htower.exists_live
  cases hn.symm.trans hm
  obtain ⟨name, e', live⟩ := n
  cases hv
  cases hlive
  have hinspect := Act.yields_inspect (w := s.begun) htower hs hw hn
  obtain ⟨f, hp, hf⟩ : ∃ f : Option SharedReport → Act Value,
      Step.plan s.slots (.shared (.inspect v.cls source)) =
        .ok (.answering (v.cls.inspect x >>= f)) ∧ ∀ r, f (some r) = pure (.sharedReport r) := by
    have hbind : Step.plan s.slots (.shared (.inspect v.cls source)) =
        s.slots.struct source >>= _ := rfl
    rw [Slots.struct_of_find? hsource] at hbind
    exact ⟨_, hbind, fun _ => rfl⟩
  refine ⟨⟨v.cls.tag, v.count, s.world.store.nameOf v.object, e.tells .unique,
    e.tells .referenced⟩, rfl, rfl, replies_of_yields hp ?_⟩
  exact Act.yields_bind hinspect fun w' _ => hf _ ▸ Act.yields_pure _ w'

theorem replies_otherValue (ht : s.world.IsTolerant) {source : String}
    (hsource : s.slots.find? source = some (.handle x .child)) (hx : s.world.store.IsChild x) :
    (s.world.store.ChildOnly x → ∃ r, e.value? 1 = some r ∧
      s.Replies (.handle (.otherValue source)) (.number r.toInt)) ∧
    (¬ s.world.store.ChildOnly x → s.world.store.ClientsBounded x →
      s.Replies (.handle (.otherValue source)) (.number 0)) := by
  have hp : Step.plan s.slots (.handle (.otherValue source)) =
      .ok (.answering (asNumber (Act.answer 1 x))) := by
    show (s.slots.argument (some source) >>= _) = _
    simp only [Slots.argument, hsource]
    rfl
  have hreplies {r : Int32} (h : s.world.store.Delivers 1 x r) :
      s.Replies (.handle (.otherValue source)) (.number r.toInt) :=
    replies_of_yields hp (Act.yields_map (Act.yields_answer (w := s.begun) h hs ht)
      fun r => Value.number r.toInt)
  obtain ⟨hall, hnot⟩ := htower.delivers_other hs hw fun n hn => Store.knowsOther_of_isChild hx hn
  refine ⟨fun honly => ?_, fun honly hb => hreplies (hnot honly hb)⟩
  obtain ⟨r, hr, hdelivers⟩ := hall honly
  exact ⟨r, hr, hreplies hdelivers⟩

end Towers

/-- Every tower whose structures have their members is transparent, whatever its height and the
classes of its wrappers and proxies, unless the check of the start of shutdown can unwind. -/
theorem towers_transparent (h : Reachable State.Proceeds s out) (ht : s.world.IsTolerant)
    (htower : s.world.store.Tower x e) (hw : s.world.store.AllWhole x) : s.Transparent x e := by
  have hs : s.world.store.Sound := (h.undisturbed ht.not_isClosed).balanced.sound
  have hbelow {y : Id} (hy : y ∈ s.world.store.chain x) :
      s.world.store.Tower y e ∧ s.world.store.AllWhole y :=
    ⟨htower.of_mem hs hy, hw.of_mem hs hy⟩
  refine ⟨replies_value htower hs hw ht, ?_, ?_, ?_⟩
  · intro y hy q step hstep
    exact hstep.replies (hbelow hy).1 hs (hbelow hy).2
  · intro y hy source n v hsource hn hv
    exact replies_inspect (hbelow hy).1 hs (hbelow hy).2 hsource hn hv
  · intro source hsource hx
    exact replies_otherValue htower hs hw ht hsource hx

/-- A structure of the far side comes in, goes out again and comes back. -/
def broughtBack : List Step :=
  [.create (.sharedFar ⟨7, 9, 1⟩ none []) "f", .shared (.receive .child (some "f") "p"),
    .shared (.wrap .child (some "p") "w"), .shared (.receive .child (some "w") "q")]

/-- An object is handed on by a class that has no member for the other value. -/
def handedOnAsClient : List Step :=
  [.create (.sharedObject ⟨.client 7, none⟩) "a", .shared (.wrap .client (some "a") "w"),
    .shared (.receive .child (some "w") "p")]

/-- The proxy of the wrapper of the proxy answers as the structure does. The proxy of a wrapper of
the client class finds no other value. -/
theorem towers_transparent_broughtBack :
    let s := (State.initial {} (some .default)).after broughtBack
    let s' := (State.initial {} (some .default)).after handedOnAsClient
    (s.Replies (.handle (.value "q")) (.number 7) ∧
      s.Replies (.handle (.otherValue "q")) (.number 9)) ∧
      s'.Replies (.handle (.otherValue "p")) (.number 0) := by
  have hreachable := ((Reachable.initial {} (some .default)).after broughtBack rfl).proceeds
  have htower : ((State.initial {} (some .default)).after broughtBack).world.store.Tower 3
      (.sharedFar ⟨⟨7, 9, 1⟩, Creation.farStruct Layout.sharedChild none [], 1, false⟩) :=
    .proxy rfl (.wrapper rfl (Or.inr ⟨rfl, _, rfl, rfl⟩) (.proxy rfl (.far rfl
      (show ∀ i < 6, _ = true by decide))))
  have hnew : ((State.initial {} (some .default)).after broughtBack).world.store.AllWrappers
      (fun v => v.cls = .child ∧ v.struct = v.cls.newStruct) 3 := by
    intro y hy n v hn hv
    change y ∈ [3, 2, 1, 0] at hy
    simp only [List.mem_cons, List.not_mem_nil, or_false] at hy
    rcases hy with rfl | rfl | rfl | rfl <;> cases hn <;> cases hv
    exact ⟨rfl, rfl⟩
  have htransparent := towers_transparent hreachable (by rintro ⟨⟩) htower
    (hnew.mono fun v hv => v.isWhole_of_new hv.2)
  obtain ⟨r, hr, hvalue⟩ := htransparent.value
  cases hr
  obtain ⟨r', hr', hother⟩ := (htransparent.otherValue "q" rfl ⟨_, rfl, rfl⟩).1
    (hnew.mono fun v hv => hv.1)
  cases hr'
  refine ⟨⟨hvalue _ (.handle rfl (Or.inr rfl)), hother⟩, ?_⟩
  have hreachable := ((Reachable.initial {} (some .default)).after handedOnAsClient rfl).proceeds
  have htower : ((State.initial {} (some .default)).after handedOnAsClient).world.store.Tower 2
      (.sharedObject ⟨⟨.client 7, none⟩, Count.zero.succ⟩) :=
    .proxy rfl (.wrapper rfl (Or.inl rfl) (.object rfl rfl))
  have hnew : ((State.initial {} (some .default)).after handedOnAsClient).world.store.AllWrappers
      (fun v => v.struct = v.cls.newStruct) 2 := by
    intro y hy n v hn hv
    change y ∈ [2, 1, 0] at hy
    simp only [List.mem_cons, List.not_mem_nil, or_false] at hy
    rcases hy with rfl | rfl | rfl <;> cases hn <;> cases hv
    rfl
  have htransparent := towers_transparent hreachable (by rintro ⟨⟩) htower
    (hnew.mono fun v hv => v.isWhole_of_new hv)
  refine (htransparent.otherValue "p" rfl ⟨_, rfl, rfl⟩).2 (fun honly => ?_)
    (hnew.mono fun v hv _ => v.isBounded_of_new hv)
  cases honly 1 (List.mem_cons_of_mem 2 List.mem_cons_self) _ _ rfl rfl

/-- An object is handed on, and then its wrapper loses a member. -/
def handedOnSilenced : List Step :=
  [.create (.sharedObject ⟨.client 7, none⟩) "a", .shared (.wrap .client (some "a") "w"),
    .shared (.receive .client (some "w") "p"), .struct (.clear "w" "get_value")]

/-- A tower need not be transparent if only its bottom has its members. -/
theorem not_towers_transparent_silenced :
    ¬ ∀ s out x e, Reachable State.Proceeds s out → s.world.isShutdown = false →
      s.world.store.Tower x e → s.Transparent x e := by
  intro h
  have hreachable := ((Reachable.initial {} (some .default)).after handedOnSilenced rfl).proceeds
  have htower : ((State.initial {} (some .default)).after handedOnSilenced).world.store.Tower 2
      (.sharedObject ⟨⟨.client 7, none⟩, Count.zero.succ⟩) :=
    .proxy rfl (.wrapper rfl (Or.inl rfl) (.object rfl rfl))
  obtain ⟨r, hr, hvalue⟩ := (h _ _ 2 _ hreachable rfl htower).value
  cases hr
  have houtcome := (hvalue (.handle (.value "p")) (.handle rfl (Or.inl rfl))).outcome
  have hzero : (((State.initial {} (some .default)).after handedOnSilenced).step
      (.handle (.value "p"))).1.outcome = .done (.number 0) := rfl
  rw [hzero] at houtcome
  have hvalue : (0 : Int) = (7 : Int32).toInt := Value.number.inj (Outcome.done.inj houtcome)
  exact absurd hvalue (by decide)

end ObjectBoundary.Session
