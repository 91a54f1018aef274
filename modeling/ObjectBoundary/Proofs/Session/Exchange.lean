import ObjectBoundary.Proofs.Acts.Exchange
import ObjectBoundary.Proofs.Session.History
import ObjectBoundary.Proofs.Session.Recovery

/-!
# Steps that exchange references

What the steps by which a shared object or structure crosses the boundary leave, where all of its
chain hands references on: a wrapper or proxy more, or one with a reference less. If there is
nothing to cross, they leave everything as it was.

* `State.Reaches`: a step is done and leaves certain entities and slots.
* `reaches_wrap`, `reaches_unwrap`, `reaches_receive`, `reaches_giveBack`: such steps.
* `Crosses.reaches_null`: the same steps where nothing crosses.
* `State.Spares`: several steps that leave the entities of a store alone.
-/

namespace ObjectBoundary.Session

open ObjectBoundary Act

variable {s : State} {x : Step} {st st' : Store} {source name : String}

/-! ## Steps of known effect -/

/-- A step is done and leaves certain entities and slots. -/
structure State.Reaches (s : State) (x : Step) (st : Store) (slots : Slots) : Prop where
  done : s.isDone x = true
  world : s.world.Becomes (s.step x).2.world st
  slots : (s.step x).2.slots = slots

theorem State.reaches_of_free {p : Plan} {v : Value} {slot : Slot}
    (hp : x.plan s.slots = .ok p) (hfree : State.nameIsFree s.slots p = true)
    (h : Makes p.act s.begun (v, slot) st) :
    s.Reaches x st (p.makes.elim (State.remaining s.slots p)
      fun name => (State.remaining s.slots p).add name slot) := by
  obtain ⟨w', hw', hbecomes⟩ := h .normal
  have hstep := State.step_of_done hp hfree hw'
  refine ⟨?_, ?_, ?_⟩
  · rw [State.isDone, hstep]
    rfl
  · rw [hstep]
    exact ⟨hbecomes.store, hbecomes.isShutdown, hbecomes.inForce⟩
  · rw [hstep]

theorem State.reaches_of_makes {p : Plan} {v : Value} {slot : Slot}
    (hp : x.plan s.slots = .ok p) (hm : p.makes = some name)
    (hname : s.slots.find? name = none) (h : Makes p.act s.begun (v, slot) st) :
    s.Reaches x st ((State.remaining s.slots p).add name slot) := by
  have hfree : State.nameIsFree s.slots p = true := by
    rw [State.nameIsFree, hm, Option.all_some, Option.isNone_iff_eq_none, State.remaining]
    cases p.consumes with
    | none => exact hname
    | some used =>
      show (s.slots.without used).find? name = none
      rw [Slots.find?_without, hname, ite_self]
  have hreaches := State.reaches_of_free hp hfree h
  rwa [hm] at hreaches

/-- A step that makes no slot. -/
theorem State.reaches_of_answers {p : Plan} {r : Value × Slot} (hp : x.plan s.slots = .ok p)
    (hm : p.makes = none) (h : Makes p.act s.begun r st) :
    s.Reaches x st (State.remaining s.slots p) := by
  have hfree : State.nameIsFree s.slots p = true := by rw [State.nameIsFree, hm, Option.all_none]
  have hreaches := State.reaches_of_free hp hfree h
  rwa [hm] at hreaches

theorem makes_holding {w : World} (slot : Id → Slot) (z : Id) (h : w.store = st) :
    Makes (holding slot (some z)) w (.text (st.nameOf z), slot z) st :=
  fun _ => ⟨w, by rw [← h]; rfl, h, rfl, rfl⟩

theorem plan_receive {slots : Slots} {z : Id} (h : slots.find? source = some (.struct z))
    (c : ProxyClass) (name : String) :
    Step.plan slots (.shared (.receive c (some source) name)) =
      .ok (.making name ((SharedStep.requireShared z >>= fun _ => c.receive name z) >>= fun p =>
        holding (fun o => .handle o c.sharedInterface) (some p))) := by
  show (slots.struct? (some source) >>= _) = _
  rw [Slots.struct?_of_find? h, bind_assoc]
  rfl

theorem plan_giveBack {slots : Slots} {c : ProxyClass} {o : Id}
    (h : slots.find? source = some (.handle o c.sharedInterface)) (name : String) :
    Step.plan slots (.shared (.giveBack c (some source) name)) =
      .ok ((Plan.making name (c.giveBack o >>= holding .struct)).consuming (some source)) := by
  show (slots.handle? (some source) >>= _) = _
  rw [Slots.handle?_of_find? h]
  show (viewed c.sharedInterface (some (o, c.sharedInterface)) >>= _) = _
  rw [viewed, if_pos rfl]
  rfl

theorem yields_requireShared {w : World} {z : Id} (hr : w.store.HasRole z .sharedStructure)
    (hlive : w.store.IsLive z) : Yields (SharedStep.requireShared z) w () := by
  obtain ⟨⟨name, e, live⟩, hn, hrole⟩ := hr
  obtain ⟨m, hm, hlive⟩ := hlive
  cases hn.symm.trans hm
  refine yields_entity_bind hn hlive ?_
  cases e <;> first | exact yields_pure () _ | cases hrole

section Crossings

variable {out : Ledger} (hb : Balanced s out) (ht : s.world.IsTolerant)
  (hname : s.slots.find? name = none)
include hb ht hname

theorem reaches_wrap {c : SharedClass} {o : Id}
    (hslot : s.slots.find? source = some (.handle o c.interface)) (h : s.world.store.Ready o) :
    s.Reaches (.shared (.wrap c (some source) name))
      (s.world.store.push ⟨name, .sharedWrapper ⟨c, o, c.newStruct, Count.zero.succ⟩, true⟩)
      ((s.slots.without source).add name (.struct s.world.store.size)) := by
  have hplan := Wrapping.plan_step (m := .shared c) hslot name
  have hrole : s.world.store.HasRole o .sharedObject := hb.fit.find? hslot
  have hmade := c.makes_wrap (w := s.begun) name hb.sound ht hrole h
  exact State.reaches_of_makes hplan rfl hname (makes_bind hmade fun w' h' =>
    makes_holding _ _ h'.store)

theorem reaches_unwrap {c : SharedClass} {z : Id} {label : String} {v : SharedWrapper}
    (hslot : s.slots.find? source = some (.struct z))
    (hz : s.world.store.get? z = some ⟨label, .sharedWrapper v, true⟩)
    (h : s.world.store.Ready z) (hc : c.Recovers v.cls) :
    s.Reaches (.shared (.unwrap c (some source) name)) (s.world.store.modify z Node.lowered)
      (s.slots.add name (.handle v.object c.interface)) := by
  have hmade := SharedClass.makes_unwrap (w := s.begun) hb.sound ht hz h hc
  exact State.reaches_of_makes (plan_unwrap hslot c name) rfl hname (makes_bind hmade fun w' h' =>
    makes_holding (fun o => .handle o c.interface) _ h'.store)

theorem reaches_receive {c : ProxyClass} {z : Id}
    (hslot : s.slots.find? source = some (.struct z))
    (hr : s.world.store.HasRole z .sharedStructure) (h : s.world.store.Ready z) :
    s.Reaches (.shared (.receive c (some source) name))
      (s.world.store.push ⟨name, .sharedProxy ⟨c, z, Count.zero.succ⟩, true⟩)
      (s.slots.add name (.handle s.world.store.size c.sharedInterface)) := by
  obtain ⟨n, hn, hlive, -⟩ := h.upheld z (Store.mem_chain_self hb.sound.earlier z)
  have hmade : Makes (SharedStep.requireShared z >>= fun _ => c.receive name z) s.begun
      s.world.store.size
      (s.world.store.push ⟨name, .sharedProxy ⟨c, z, Count.zero.succ⟩, true⟩) := by
    refine makes_yields_bind (yields_requireShared hr ⟨n, hn, hlive⟩) fun w₁ h₁ => ?_
    have hstore : w₁.store = s.world.store := h₁.store
    rw [← hstore] at hr h ⊢
    exact c.makes_receive name (hstore ▸ hb.sound) (h₁.isTolerant ht) hr h
  exact State.reaches_of_makes (plan_receive hslot c name) rfl hname
    (makes_bind hmade fun w' h' =>
      makes_holding (fun o => .handle o c.sharedInterface) _ h'.store)

theorem reaches_giveBack {c : ProxyClass} {o : Id} {label : String} {p : SharedProxy}
    (hslot : s.slots.find? source = some (.handle o c.sharedInterface))
    (ho : s.world.store.get? o = some ⟨label, .sharedProxy p, true⟩)
    (h : s.world.store.Ready o) (hc : c.Recovers p.cls) :
    s.Reaches (.shared (.giveBack c (some source) name)) (s.world.store.modify o Node.lowered)
      ((s.slots.without source).add name (.struct p.target)) := by
  have hmade := ProxyClass.makes_giveBack (w := s.begun) hb.sound ht ho h hc
  exact State.reaches_of_makes (plan_giveBack hslot name) rfl hname
    (makes_bind hmade fun w' h' => makes_holding _ _ h'.store)

end Crossings

theorem reaches_upcast (target : Upcast) {slot slot' : Slot} {via : String}
    (hslot : s.slots.find? source = some slot)
    (hcast : HandleStep.upcastSlot target slot = .ok slot') (hvia : s.slots.find? via = none) :
    s.Reaches (.handle (.upcast source target via)) s.world.store
      ((s.slots.without source).add via slot') := by
  have hplan : Step.plan s.slots (.handle (.upcast source target via)) =
      .ok ((Plan.making via (pure (.null, slot'))).consuming source) := by
    show (s.slots.argument (some source) >>= fun slot =>
      HandleStep.upcastSlot target slot >>= _) = _
    rw [Slots.argument_of_find? hslot]
    show (HandleStep.upcastSlot target slot >>= _) = _
    rw [hcast]
    rfl
  exact State.reaches_of_makes hplan rfl hvia (makes_pure _ s.begun)

/-- The steps by which a shared object or structure crosses the boundary. -/
inductive Crosses (source name : String) : Step → Prop
  | wrap (c : SharedClass) : Crosses source name (.shared (.wrap c (some source) name))
  | unwrap (c : SharedClass) : Crosses source name (.shared (.unwrap c (some source) name))
  | receive (c : ProxyClass) : Crosses source name (.shared (.receive c (some source) name))
  | giveBack (c : ProxyClass) : Crosses source name (.shared (.giveBack c (some source) name))

/-- Nothing becomes nothing. -/
theorem Crosses.reaches_null (h : Crosses source name x)
    (hslot : s.slots.find? source = some .null) (hname : s.slots.find? name = none) :
    s.Reaches x s.world.store (s.slots.add name .null) := by
  have hplan : x.plan s.slots = .ok (.making name (pure (.null, .null))) := by
    have harg : s.slots.argument (some source) = .ok .null := by rw [Slots.argument, hslot]
    have hhandle : s.slots.handle? (some source) = .ok none := by
      rw [Slots.handle?, harg]
      rfl
    have hstruct : s.slots.struct? (some source) = .ok none := by
      rw [Slots.struct?, harg]
      rfl
    cases h with
    | wrap c | giveBack c =>
      show (s.slots.handle? (some source) >>= _) = _
      rw [hhandle]
      rfl
    | unwrap c | receive c =>
      show (s.slots.struct? (some source) >>= _) = _
      rw [hstruct]
      rfl
  exact State.reaches_of_makes hplan rfl hname (makes_pure _ s.begun)

/-! ## Steps that leave the rest alone -/

theorem Slots.find?_added {slots : Slots} {other : String} (slot : Slot) (h : other ∉ [name]) :
    (slots.add name slot).find? other = slots.find? other := by
  rw [find?_add, if_neg fun heq : other = name => h (heq ▸ List.mem_cons_self)]

theorem Slots.find?_exchanged {slots : Slots} {other : String} (slot : Slot)
    (h : other ∉ [source, name]) :
    ((slots.without source).add name slot).find? other = slots.find? other := by
  simp only [List.mem_cons, List.not_mem_nil, or_false, not_or] at h
  rw [find?_add, if_neg h.2, find?_without, if_neg h.1]

/-- Some steps are done, one after the other, and after each of them the entities of a store are
as they were in it. Only certain slots change. -/
structure State.Spares (s : State) (st : Store) (steps : List Step) (names : List String) :
    Prop where
  done : s.areDone steps = true
  kept : s.All (fun t x => st.Keeps (t.step x).2.world.store) steps
  others : ∀ name, name ∉ names → (s.after steps).slots.find? name = s.slots.find? name
  tolerant : s.world.IsTolerant → (s.after steps).world.IsTolerant

namespace State

variable {names names' : List String} {xs ys : List Step}

theorem Spares.nil (s : State) (st : Store) (names : List String) : s.Spares st [] names :=
  ⟨rfl, trivial, fun _ _ => rfl, id⟩

theorem Spares.append (h : s.Spares st xs names) (h' : (s.after xs).Spares st ys names') :
    s.Spares st (xs ++ ys) (names ++ names') := by
  refine ⟨?_, all_append h.kept h'.kept, fun name hname => ?_, fun ht => ?_⟩
  · rw [areDone_append, h.done, h'.done]
    rfl
  · rw [List.mem_append, not_or] at hname
    rw [after_append, h'.others name hname.2, h.others name hname.1]
  · rw [after_append]
    exact h'.tolerant (h.tolerant ht)

theorem Spares.mono (h : s.Spares st xs names) (hst : st'.Keeps st)
    (hnames : ∀ name ∈ names, name ∈ names') : s.Spares st' xs names' :=
  ⟨h.done, h.kept.imp fun _ _ hk => hst.trans hk,
    fun name hname => h.others name fun hmem => hname (hnames name hmem), h.tolerant⟩

/-- What is kept after every step is kept in the end. -/
theorem Spares.keeps (h : s.Spares st xs names) (hk : st.Keeps s.world.store) :
    st.Keeps (s.after xs).world.store := by
  have hkept := h.kept
  clear h
  induction xs generalizing s with
  | nil => exact hk
  | cons x xs ih => exact ih hkept.1 hkept.2

/-- A name that steps do not use stays free. -/
theorem Spares.free_after (h : s.Spares st xs names) (h' : (s.after xs).Spares st' ys names')
    (hfree : s.slots.find? name = none) (hname : name ∉ names) (hname' : name ∉ names') :
    ((s.after xs).after ys).slots.find? name = none := by
  rw [h'.others name hname', h.others name hname]
  exact hfree

theorem Spares.balanced {out : Ledger} (h : s.Spares st xs names) (hb : Balanced s out) :
    ∃ out', Balanced (s.after xs) out' := ⟨_, hb.along (all_of_areDone h.done)⟩

/-- What was there before some steps stands as they end. -/
theorem Spares.stands {out : Ledger} {z : Id} {n : Node}
    (h : s.Spares s.world.store xs names) (hb : Balanced s out)
    (hn : s.world.store.get? z = some n) (hready : s.world.store.Ready z) :
    ∃ out', Balanced (s.after xs) out' ∧ (s.after xs).world.store.get? z = some n ∧
      (s.after xs).world.store.Ready z := by
  obtain ⟨out', hb'⟩ := h.balanced hb
  have hkept := h.keeps (.refl _)
  exact ⟨out', hb', (hkept z (Store.lt_size hn)).trans hn,
    hready.keeps hkept hb.sound.linked hb'.sound.linked⟩

theorem Reaches.spares {slots : Slots} (h : s.Reaches x st' slots) (hk : st.Keeps st')
    (hothers : ∀ name, name ∉ names → slots.find? name = s.slots.find? name) :
    s.Spares st [x] names := by
  have hstep : st.Keeps (s.step x).2.world.store := h.world.store.symm ▸ hk
  refine ⟨?_, ⟨hstep, trivial⟩, fun name hname => ?_, h.world.isTolerant⟩
  · show (s.isDone x && true) = true
    rw [h.done]
    rfl
  · show (s.step x).2.slots.find? name = _
    rw [h.slots]
    exact hothers name hname

theorem Reaches.spares_add {slot : Slot} (h : s.Reaches x st' (s.slots.add name slot))
    (hk : st.Keeps st') : s.Spares st [x] [name] :=
  h.spares hk fun _ => Slots.find?_added slot

theorem Reaches.spares_exchange {slot : Slot}
    (h : s.Reaches x st' ((s.slots.without source).add name slot)) (hk : st.Keeps st') :
    s.Spares st [x] [source, name] :=
  h.spares hk fun _ => Slots.find?_exchanged slot

/-- The slot that a step makes is found. -/
theorem Reaches.find? {slots : Slots} {slot : Slot} (h : s.Reaches x st (slots.add name slot)) :
    (s.after [x]).slots.find? name = some slot := by
  show (s.step x).2.slots.find? name = _
  rw [h.slots, Slots.find?_add, if_pos rfl]

end State

end ObjectBoundary.Session
