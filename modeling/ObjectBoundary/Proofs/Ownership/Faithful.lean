import ObjectBoundary.Proofs.Ownership.Peeling
import ObjectBoundary.Proofs.Session.Towers

/-!
# Towers that serve their bottom

A tower with a single owner stands for the object at its bottom: calls through its top reach the
object, the tower goes with its top and takes the object along, and layer by layer it gives the
object back. All three hold of every tower whose structures have their members.

* `State.AsksOwned`, `State.Discards`: the steps that ask the top, and those that destroy it.
* `State.Discarded`: what is left after a tower was destroyed.
* `State.Uncovered`: what is left after a tower was peeled.
* `State.Faithful`: what holds of a tower.
* `owned_towers_faithful`: it holds of towers of any height.
* `not_owned_towers_faithful_silenced`: it takes the members of all structures.
-/

namespace ObjectBoundary.Session

open ObjectBoundary Act

variable {s : State} {out : Ledger} {x : Step} {top bottom : Id} {o : LocalObject}

/-! ## Steps that concern the top -/

namespace State

/-- A step that asks for a value, through the owner of an object or through the structure of its
wrapper. -/
inductive AsksOwned (s : State) (x : Id) : Step → Prop
  | owner {source : String} {view : OwnedInterface} :
    s.slots.find? source = some (.owner x view) → s.AsksOwned x (.handle (.value source))
  | call {source : String} :
    s.slots.find? source = some (.struct x) → s.world.store.HasRole x .ownedStructure →
      s.AsksOwned x (.struct (.call source "get_value" .itself))

/-- A step that destroys an object with its owner, or the wrapper of an object through its
structure. -/
inductive Discards (s : State) (x : Id) : Step → Prop
  | drop {source : String} {view : OwnedInterface} :
    s.slots.find? source = some (.owner x view) → s.Discards x (.handle (.drop source))
  | delete {source : String} :
    s.slots.find? source = some (.struct x) → s.world.store.HasRole x .ownedStructure →
      s.Discards x (.struct (.call source "del" .itself))

/-- A step has destroyed a tower, its bottom once, and touched nothing else. -/
structure Discarded (s : State) (x : Step) (top bottom : Id) : Prop where
  done : s.isDone x = true
  gone : ∀ z ∈ s.world.store.chain top, ¬ (s.step x).2.world.store.IsLive z
  kept : ∀ z, z ∉ s.world.store.chain top →
    (s.step x).2.world.store.get? z = s.world.store.get? z
  dropped : ∀ z, (s.step x).2.world.log.count (.dropped z) = if z = bottom then 1 else 0
  slots : ∀ name, (s.step x).2.slots.find? name = s.slots.find? name ∨
    (s.step x).2.slots.find? name = none ∧
      ∃ view, s.slots.find? name = some (.owner top view)

/-- Steps have taken all layers off a tower. Each layer gave up what was below it before it ceased
to exist, so it has deleted nothing. The bottom is as it was, and so is all else. -/
structure Uncovered (s : State) (steps : List Step) (names : List String) (result : String)
    (top bottom : Id) (view : OwnedInterface) : Prop where
  done : s.areDone steps = true
  returned : (s.after steps).slots.find? result = some (.owner bottom view)
  layers : ∀ z ∈ s.world.store.chain top, z ≠ bottom →
    (s.after steps).world.store.get? z = (s.world.store.get? z).map Node.unlinked
  kept : ∀ z, z ∉ s.world.store.chain top ∨ z = bottom →
    (s.after steps).world.store.get? z = s.world.store.get? z
  dropped : ∀ z, (s.logged steps).count (.dropped z) = 0
  slots : ∀ name, name ∉ names → (s.after steps).slots.find? name = s.slots.find? name

/-- A tower serves the object at its bottom: the top answers as the object does, the tower is
destroyed with its top, and whoever takes the layers off gets the object back. -/
structure Faithful (s : State) (top bottom : Id) (o : LocalObject) : Prop where
  value : ∃ r, o.behavior.answer? 0 = some r ∧
    ∀ x, s.AsksOwned top x → s.Replies x (.number r.toInt)
  discarded : ∀ x, s.Discards top x → s.Discarded x top bottom
  uncovered : ∀ source slot layers view, s.slots.find? source = some slot →
    slot.Tops s.world.store top → Peels s.world.store slot layers view →
    s.slots.Free (layers.flatMap Peel.names) →
    s.Uncovered (peeling slot.side source layers) (source :: layers.flatMap Peel.names)
      (innermost source layers) top bottom view
  peels : ∀ slot via names, slot.Tops s.world.store top →
    names.length + 1 = (s.world.store.chain top).length → s.slots.Free ([via] ++ names) →
    ∃ layers view, Peels s.world.store slot layers view ∧
      s.slots.Free (layers.flatMap Peel.names)

end State

/-! ## Towers of any height -/

section Towers

variable (htower : s.world.store.OwnedTower OwnedWrapper.IsWhole bottom o top)
include htower

/-- The structure on top of a tower has one of two layouts. -/
theorem layout_of_ownedTower (hs : s.world.store.Sound)
    (hr : s.world.store.HasRole top .ownedStructure) :
    ∃ name v, s.world.store.get? top = some ⟨name, .ownedWrapper v, true⟩ ∧
      v.struct.layout.position? "get_value" = some Layout.ownedFirst ∧
      v.struct.layout.position? "del" = some Layout.del := by
  obtain ⟨_, name, v, hv, hcls, -⟩ := htower.of_structure hr
  have hlayout : v.struct.layout = v.cls.layout := hs.formed top _ hv
  refine ⟨name, v, hv, ?_⟩
  rw [hlayout]
  rcases hcls with hcls | hcls <;> rw [hcls] <;> exact ⟨rfl, rfl⟩

theorem replies_owned (hs : s.world.store.Sound) (ht : s.world.IsTolerant) :
    ∃ r, o.behavior.answer? 0 = some r ∧
      ∀ x, s.AsksOwned top x → s.Replies x (.number r.toInt) := by
  obtain ⟨r, hr⟩ := htower.exists_value
  refine ⟨r, hr, fun x hx => ?_⟩
  cases hx with
  | @owner source view hsource =>
    have hp : Step.plan s.slots (.handle (.value source)) =
        .ok (.answering (asNumber (answer 0 top))) := by
      show (s.slots.argument (some source) >>= _) = _
      rw [Slots.argument_of_find? hsource]
      cases view <;> rfl
    have hanswer : Yields (answer 0 top) s.begun r := htower.yields_answer hr hs ht
    exact replies_of_yields hp (yields_map hanswer fun r => Value.number r.toInt)
  | @call source hsource hrole =>
    obtain ⟨name, v, hv, hvalue, -⟩ := layout_of_ownedTower htower hs hrole
    have hcall : Yields (Act.call top Layout.ownedFirst (some top)) s.begun (.number r) :=
      htower.yields_call hr hs ht hrole
    exact replies_of_call hsource hv rfl rfl hvalue hcall

/-- A step that destroys all of a tower destroys the bottom once, as the log tells. -/
theorem discarded_of_reaches {slots : Slots} (hb : Balanced s out)
    (h : s.Reaches x (s.world.store.modifyAll (s.world.store.chain top) Node.disposed) slots)
    (hslots : ∀ name, slots.find? name = s.slots.find? name ∨ slots.find? name = none ∧
      ∃ view, s.slots.find? name = some (.owner top view)) :
    s.Discarded x top bottom := by
  have hs := hb.sound
  have hall : s.All State.Undisturbed [x] := ⟨State.undisturbed_of_isDone h.done, trivial⟩
  refine ⟨h.done, fun z hz => ?_, fun z hz => ?_, fun z => ?_, fun name => ?_⟩
  · rw [h.world.store]
    exact htower.not_isLive_disposed hs hz
  · rw [h.world.store, Store.get?_modifyAll (Store.chain_nodup hs.earlier top), if_neg hz]
  · have hcount : (s.logged [x]).count (.dropped z) + (s.step x).2.world.store.standing z =
        s.world.store.standing z := hb.count_dropped hall z
    rw [State.logged, State.logged, List.append_nil, h.world.store,
      ← htower.standing_disposed hs z] at hcount
    exact Nat.add_right_cancel hcount
  · rw [h.slots]
    exact hslots name

/-- A tower is destroyed with its top. -/
theorem discarded (hb : Balanced s out) (ht : s.world.IsTolerant) (hx : s.Discards top x) :
    s.Discarded x top bottom := by
  cases hx with
  | @drop source view hsource =>
    have hp : Step.plan s.slots (.handle (.drop source)) =
        .ok ((Plan.answering (silently (dispose top))).consuming source) := by
      show (s.slots.argument (some source) >>= _) = _
      rw [Slots.argument_of_find? hsource]
      rfl
    have hdispose := htower.makes_dispose (w := s.begun) hb.sound ht
    have hact := makes_map (makes_map hdispose fun _ => Value.null) fun v => (v, Slot.null)
    refine discarded_of_reaches htower hb (State.reaches_of_answers hp rfl hact) fun name => ?_
    show (s.slots.without source).find? name = _ ∨ (s.slots.without source).find? name = none ∧ _
    rw [Slots.find?_without]
    by_cases hname : name = source
    · exact Or.inr ⟨if_pos hname, view, hname ▸ hsource⟩
    · exact Or.inl (if_neg hname)
  | @delete source hsource hrole =>
    obtain ⟨name, v, hv, -, hdel⟩ := layout_of_ownedTower htower hb.sound hrole
    have hcall := htower.makes_call (w := s.begun) hb.sound ht hrole
    have hact : Makes (StructStep.position top "del" >>= fun i =>
        Act.call top i (some top) >>= fun r => pure (StructStep.replyValue r)) s.begun .null
        (s.world.store.modifyAll (s.world.store.chain top) Node.disposed) := by
      intro phase
      rw [bind_apply, position_apply (w := s.begun) hv rfl rfl hdel]
      exact makes_map hcall StructStep.replyValue phase
    refine discarded_of_reaches htower hb (State.reaches_of_answers (plan_call hsource "del") rfl
      (makes_map hact fun v => (v, Slot.null))) fun name => Or.inl rfl

/-- A tower is peeled down to its bottom. -/
theorem uncovered (hb : Balanced s out) (ht : s.world.IsTolerant) {source : String} {slot : Slot}
    {layers : List Peel} {view : OwnedInterface} (hsource : s.slots.find? source = some slot)
    (hslot : slot.Tops s.world.store top) (hpeels : Peels s.world.store slot layers view)
    (hfree : s.slots.Free (layers.flatMap Peel.names)) :
    s.Uncovered (peeling slot.side source layers) (source :: layers.flatMap Peel.names)
      (innermost source layers) top bottom view := by
  have hs := hb.sound
  obtain ⟨hleads, hresult⟩ :=
    hpeels.comesOff hs hslot htower s source ht hsource (fun _ _ => rfl) hfree
  have hnodup : (s.world.store.chain top).dropLast.Nodup :=
    (Store.chain_nodup hs.earlier top).sublist (List.dropLast_sublist _)
  have hmem (z : Id) := htower.mem_dropLast_iff hs (z := z)
  refine ⟨hleads.done, hresult, fun z hz hne => ?_, fun z hz => ?_, fun z => ?_, hleads.others⟩
  · rw [hleads.world.store, Store.get?_modifyAll hnodup, if_pos ((hmem z).mpr ⟨hz, hne⟩)]
  · have hnot : z ∉ (s.world.store.chain top).dropLast := fun h =>
      hz.elim (fun hz => hz ((hmem z).mp h).1) ((hmem z).mp h).2
    rw [hleads.world.store, Store.get?_modifyAll hnodup, if_neg hnot]
  · have hcount := hb.count_dropped (State.all_of_areDone hleads.done) z
    rw [hleads.world.store, htower.standing_unlinked hs z] at hcount
    omega

end Towers

/-- Every tower with a single owner whose structures have their members serves its bottom, whatever
its height and the classes of its layers, unless the check of the start of shutdown can unwind. -/
theorem owned_towers_faithful (h : Reachable State.Proceeds s out) (ht : s.world.IsTolerant)
    (htower : s.world.store.OwnedTower OwnedWrapper.IsWhole bottom o top) :
    s.Faithful top bottom o := by
  have hb := (h.undisturbed ht.not_isClosed).balanced
  refine ⟨replies_owned htower hb.sound ht, fun x hx => discarded htower hb ht hx, ?_, ?_⟩
  · intro source slot layers view hsource hslot hpeels hfree
    exact uncovered htower hb ht hsource hslot hpeels hfree
  · intro slot via names hslot hnames hfree
    exact exists_peels htower hb.sound hslot hnames hfree

/-- An object goes out, comes in, and is then handed on under the parent interface. -/
def handedOnOwned : List Step :=
  [.create (.ownedObject ⟨.child 3 4, none⟩) "a", .owned (.give .child (some "a") "w"),
    .owned (.adopt .child (some "w") "p"), .handle (.upcast "p" .ownedClient "q"),
    .owned (.give .client (some "q") "v"), .owned (.adopt .client (some "v") "r")]

/-- The object is reached through four layers, goes with them, and comes back from below them. -/
theorem owned_towers_faithful_handedOn :
    let s := (State.initial {} (some .default)).after handedOnOwned
    let layers : List Peel := [⟨.client, none, "s"⟩, ⟨.client, none, "t"⟩, ⟨.client, none, "u"⟩,
      ⟨.child, none, "b"⟩]
    s.Replies (.handle (.value "r")) (.number 3) ∧ s.Discarded (.handle (.drop "r")) 4 0 ∧
      s.Uncovered (peeling .near "r" layers) ["r", "s", "t", "u", "b"] "b" 4 0 .child := by
  have hreachable := ((Reachable.initial {} (some .default)).after handedOnOwned rfl).proceeds
  have htower : ((State.initial {} (some .default)).after handedOnOwned).world.store.OwnedTower
      OwnedWrapper.IsWhole 0 ⟨.child 3 4, none⟩ 4 :=
    .proxy rfl rfl (.wrapper rfl (Or.inl rfl) rfl rfl ⟨rfl, by decide⟩ (.proxy rfl rfl
      (.wrapper rfl (Or.inr rfl) rfl rfl ⟨rfl, by decide⟩ (.object rfl rfl))))
  have hpeels : Peels ((State.initial {} (some .default)).after handedOnOwned).world.store
      (.owner 4 .client) [⟨.client, none, "s"⟩, ⟨.client, none, "t"⟩, ⟨.client, none, "u"⟩,
        ⟨.child, none, "b"⟩] .child :=
    .proxy rfl rfl rfl (Or.inl rfl) (.wrapper rfl rfl (Or.inl rfl)
      (.proxy rfl rfl rfl (Or.inr ⟨rfl, rfl⟩) (.wrapper rfl rfl (Or.inl rfl) (.bare rfl))))
  have hfaithful := owned_towers_faithful hreachable (by rintro ⟨⟩) htower
  obtain ⟨r, hr, hvalue⟩ := hfaithful.value
  cases hr
  refine ⟨hvalue _ (.owner rfl), hfaithful.discarded _ (.drop rfl), ?_⟩
  exact hfaithful.uncovered "r" _ _ _ rfl (.owner .client ⟨_, rfl, rfl⟩) hpeels
    ⟨by decide, by decide⟩

/-- An object is given away and adopted, and then its wrapper loses a member. -/
def adoptedSilenced : List Step :=
  [.create (.ownedObject ⟨.client 7, none⟩) "a", .owned (.give .client (some "a") "w"),
    .owned (.adopt .client (some "w") "p"), .struct (.clear "w" "get_value")]

/-- A tower need not serve its bottom if a structure lacks a member. -/
theorem not_owned_towers_faithful_silenced :
    ¬ ∀ s out top bottom o, Reachable State.Proceeds s out → s.world.isShutdown = false →
      s.world.store.OwnedTower (fun _ => True) bottom o top → s.Faithful top bottom o := by
  intro h
  have hreachable := ((Reachable.initial {} (some .default)).after adoptedSilenced rfl).proceeds
  have htower : ((State.initial {} (some .default)).after adoptedSilenced).world.store.OwnedTower
      (fun _ => True) 0 ⟨.client 7, none⟩ 2 :=
    .proxy rfl rfl (.wrapper rfl (Or.inl rfl) rfl rfl trivial (.object rfl rfl))
  obtain ⟨r, hr, hvalue⟩ := (h _ _ 2 0 _ hreachable rfl htower).value
  cases hr
  have houtcome := (hvalue (.handle (.value "p")) (.owner rfl)).outcome
  have hzero : (((State.initial {} (some .default)).after adoptedSilenced).step
      (.handle (.value "p"))).1.outcome = .done (.number 0) := rfl
  rw [hzero] at houtcome
  have hvalue : (0 : Int) = (7 : Int32).toInt := Value.number.inj (Outcome.done.inj houtcome)
  exact absurd hvalue (by decide)

end ObjectBoundary.Session
