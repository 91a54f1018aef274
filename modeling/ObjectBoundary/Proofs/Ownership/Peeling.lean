import ObjectBoundary.Proofs.Ownership.Towers
import ObjectBoundary.Proofs.Session.RoundTrips

/-!
# Towers that are peeled

The layers of a tower with a single owner are taken off one after the other, from the top. On the
near side the structure is taken out of a proxy, on the far side the object out of a wrapper. In
the end there is an owner of the object at the bottom, and the layers are gone without it.

* `peeling`: the steps.
* `Peels`: by which classes and after which upcasts all layers can be taken off.
* `State.Leads`: what is known of several steps.
* `reaches_surrender`, `reaches_takeBack`: the step that takes a layer off.
* `ComesOff.of_proxy`, `ComesOff.of_wrapper`: one layer, and then those below.
* `Peels.comesOff`: towers of any height.
* `exists_peels`: every tower can be peeled.
-/

namespace ObjectBoundary.Session

open ObjectBoundary Act

variable {s : State} {x : Step} {st st' : Store} {source name : String}

/-! ## Layers to be taken off -/

/-- The parent class takes back the proxies of both classes. -/
theorem recovers_client (c : ProxyClass) : ProxyClass.client.Recovers c := by
  cases c with
  | client => exact Or.inl rfl
  | child => exact Or.inr ⟨rfl, rfl⟩

/-- How a layer is taken off: by which class, and under which name the session keeps what was below
it. -/
structure Peel where
  cls : ProxyClass
  /-- The name of a proxy under the parent interface, if it is upcast before. -/
  cast : Option String
  name : String

namespace Peel

def names (l : Peel) : List String := l.cast.toList ++ [l.name]

/-- Upcasts the owner of a proxy, if it is to be. -/
def casting (l : Peel) (source : String) : List Step :=
  match l.cast with
  | none => []
  | some via => [.handle (.upcast source .ownedClient via)]

/-- The owner of the proxy that is taken off. -/
def owner (l : Peel) (source : String) : String := l.cast.getD source

/-- The owner of a proxy under an interface suits the class, at once or after the upcast. -/
def Suits (l : Peel) (view : OwnedInterface) : Prop :=
  if l.cast.isSome then view = .child ∧ l.cls = .client else view = l.cls.ownedInterface

theorem name_mem (l : Peel) : l.name ∈ l.names :=
  List.mem_append_right _ List.mem_cons_self

theorem cast_mem (l : Peel) {via : String} (h : via ∈ l.cast) : via ∈ l.names :=
  List.mem_append_left _ (Option.mem_toList.mpr h)

theorem name_not_mem_cast (l : Peel) (h : l.names.Nodup) : l.name ∉ l.cast.toList :=
  fun hmem => (List.nodup_append.mp h).2.2 _ hmem _ List.mem_cons_self rfl

/-- Taking a proxy off changes no slots but its own and those of the layer. -/
theorem crossing_mem (l : Peel) {source other : String}
    (h : other ∈ (source :: l.cast.toList) ++ [l.owner source, l.name]) :
    other ∈ source :: l.names := by
  unfold names owner at *
  cases hcast : l.cast <;> simp [hcast] at h ⊢ <;> tauto

end Peel

/-- Takes the layers off a tower one after the other. -/
def peeling : Side → String → List Peel → List Step
  | _, _, [] => []
  | .near, source, l :: rest =>
    (l.casting source ++ [.owned (.surrender l.cls (some (l.owner source)) l.name)]) ++
      peeling .far l.name rest
  | .far, source, l :: rest =>
    [.owned (.takeBack l.cls.ownedClass (some source) l.name)] ++ peeling .near l.name rest

/-- The name under which the session keeps what was below all layers. -/
def innermost (source : String) : List Peel → String
  | [] => source
  | l :: rest => innermost l.name rest

/-- The side on which a slot holds an owned object or its structure. -/
def Slot.side : Slot → Side
  | .struct _ => .far
  | _ => .near

/-- A slot owns an object or holds a structure that has a single owner. -/
inductive Slot.Tops (st : Store) (x : Id) : Slot → Prop
  | owner (view : OwnedInterface) : st.HasRole x .ownedObject → Tops st x (.owner x view)
  | struct : st.HasRole x .ownedStructure → Tops st x (.struct x)

theorem Slot.Tops.cases_of {slot : Slot} {x : Id} {n : Node} (h : slot.Tops st x)
    (hn : st.get? x = some n) :
    (∃ view, slot = .owner x view ∧ n.entity.role = .ownedObject) ∨
      slot = .struct x ∧ n.entity.role = .ownedStructure := by
  cases h with
  | owner view hr =>
    obtain ⟨m, hm, hrole⟩ := hr
    cases hn.symm.trans hm
    exact Or.inl ⟨view, rfl, hrole⟩
  | struct hr =>
    obtain ⟨m, hm, hrole⟩ := hr
    cases hn.symm.trans hm
    exact Or.inr ⟨rfl, hrole⟩

/-- All layers of what a slot holds can be taken off, and then the object is owned under an
interface. A layer is taken off by the class that made it or by the parent class of the child. -/
inductive Peels (st : Store) : Slot → List Peel → OwnedInterface → Prop
  | bare {o : Id} {view : OwnedInterface} {label : String} {object : LocalObject} :
    st.get? o = some ⟨label, .ownedObject object, true⟩ → Peels st (.owner o view) [] view
  | proxy {x z : Id} {view view' : OwnedInterface} {label : String} {p : OwnedProxy} {l : Peel}
    {rest : List Peel} : st.get? x = some ⟨label, .ownedProxy p, true⟩ → p.target = some z →
      l.Suits view → l.cls.Recovers p.cls → Peels st (.struct z) rest view' →
      Peels st (.owner x view) (l :: rest) view'
  | wrapper {x o : Id} {view : OwnedInterface} {label : String} {v : OwnedWrapper} {l : Peel}
    {rest : List Peel} : st.get? x = some ⟨label, .ownedWrapper v, true⟩ → v.object = some o →
      l.cls.ownedClass.Recovers v.cls → Peels st (.owner o l.cls.ownedInterface) rest view →
      Peels st (.struct x) (l :: rest) view

/-! ## Steps of known effect, one after the other -/

/-- Some steps are done, one after the other, and leave certain entities. Only certain slots
change. -/
structure State.Leads (s : State) (steps : List Step) (st : Store) (names : List String) :
    Prop where
  done : s.areDone steps = true
  world : s.world.Becomes (s.after steps).world st
  others : ∀ name, name ∉ names → (s.after steps).slots.find? name = s.slots.find? name

namespace State

variable {xs ys : List Step} {names names' : List String}

theorem Leads.nil (s : State) (names : List String) : s.Leads [] s.world.store names :=
  ⟨rfl, ⟨rfl, rfl, rfl⟩, fun _ _ => rfl⟩

theorem Leads.append (h : s.Leads xs st names) (h' : (s.after xs).Leads ys st' names') :
    s.Leads (xs ++ ys) st' (names ++ names') := by
  refine ⟨?_, ?_, fun name hname => ?_⟩
  · rw [areDone_append, h.done, h'.done]
    rfl
  · rw [after_append]
    exact h.world.trans h'.world
  · rw [List.mem_append, not_or] at hname
    rw [after_append, h'.others name hname.2, h.others name hname.1]

theorem Leads.mono (h : s.Leads xs st names) (hnames : ∀ name ∈ names, name ∈ names') :
    s.Leads xs st names' :=
  ⟨h.done, h.world, fun name hname => h.others name fun hmem => hname (hnames name hmem)⟩

theorem Reaches.leads {slots : Slots} (h : s.Reaches x st slots)
    (hothers : ∀ name, name ∉ names → slots.find? name = s.slots.find? name) :
    s.Leads [x] st names := by
  refine ⟨?_, h.world, fun name hname => ?_⟩
  · show (s.isDone x && true) = true
    rw [h.done]
    rfl
  · show (s.step x).2.slots.find? name = _
    rw [h.slots]
    exact hothers name hname

end State

/-! ## One layer -/

section Layer

variable {o z : Id} {label : String}

theorem plan_surrender {slots : Slots} {c : ProxyClass}
    (h : slots.find? source = some (.owner o c.ownedInterface)) (name : String) :
    Step.plan slots (.owned (.surrender c (some source) name)) =
      .ok ((Plan.making name (c.surrender o >>= holding .struct)).consuming (some source)) := by
  show (slots.owner? (some source) >>= _) = _
  rw [Slots.owner?_of_find? h]
  show (viewed c.ownedInterface (some (o, c.ownedInterface)) >>= _) = _
  rw [viewed, if_pos rfl]
  rfl

theorem reaches_surrender {c : ProxyClass} {p : OwnedProxy} {n : Node} {t : Structure}
    (ht : s.world.IsTolerant) (hslot : s.slots.find? source = some (.owner o c.ownedInterface))
    (hname : s.slots.find? name = none)
    (ho : s.world.store.get? o = some ⟨label, .ownedProxy p, true⟩) (hc : c.Recovers p.cls)
    (hp : p.target = some z) (hz : s.world.store.get? z = some n) (hlive : n.live = true)
    (hstruct : n.entity.struct? = some t) (hset : t.isSet Layout.del = true) :
    s.Reaches (.owned (.surrender c (some source) name)) (s.world.store.modify o Node.unlinked)
      ((s.slots.without source).add name (.struct z)) := by
  have hmade := ProxyClass.makes_surrender (w := s.begun) ho hp hz hlive hstruct hset ht hc
  exact State.reaches_of_makes (plan_surrender hslot name) rfl hname
    (makes_bind hmade fun w' h' => makes_holding _ _ h'.store)

theorem reaches_takeBack {c : OwnedClass} {v : OwnedWrapper} (ht : s.world.IsTolerant)
    (hslot : s.slots.find? source = some (.struct z)) (hname : s.slots.find? name = none)
    (hz : s.world.store.get? z = some ⟨label, .ownedWrapper v, true⟩) (hc : c.Recovers v.cls)
    (howns : v.owns = true) (ho : v.object = some o) :
    s.Reaches (.owned (.takeBack c (some source) name)) (s.world.store.modify z Node.unlinked)
      (s.slots.add name (.owner o c.interface)) := by
  have hmade := OwnedClass.makes_takeBack_unlinked (w := s.begun) hz hc howns ho ht
  exact State.reaches_of_makes (plan_takeBack hslot c name) rfl hname
    (makes_bind hmade fun w' h' => makes_holding (fun o => .owner o c.interface) _ h'.store)

/-- The owner of a proxy suits a class, at once or after the upcast. -/
theorem Peel.leads_casting {l : Peel} {view : OwnedInterface} (hsuits : l.Suits view)
    (hslot : s.slots.find? source = some (.owner o view))
    (hfree : ∀ via ∈ l.cast, s.slots.find? via = none) :
    s.Leads (l.casting source) s.world.store (source :: l.cast.toList) ∧
      (s.after (l.casting source)).slots.find? (l.owner source) =
        some (.owner o l.cls.ownedInterface) := by
  unfold Peel.Suits at hsuits
  unfold Peel.casting Peel.owner
  cases hcast : l.cast with
  | none =>
    rw [hcast] at hsuits
    refine ⟨.nil s _, ?_⟩
    rw [← show view = l.cls.ownedInterface from hsuits]
    exact hslot
  | some via =>
    rw [hcast] at hsuits hfree
    obtain ⟨rfl, hcls⟩ : view = .child ∧ l.cls = .client := hsuits
    have hreaches := reaches_upcast .ownedClient hslot rfl (hfree via rfl)
    rw [hcls]
    exact ⟨hreaches.leads fun _ => Slots.find?_exchanged _, hreaches.find?⟩

end Layer

/-! ## All layers -/

section Layers

variable {layers rest : List Peel} {view : OwnedInterface} {slot : Slot} {l : Peel}
  {top y bottom : Id} {o : LocalObject}

/-- What a slot holds comes off, layer by layer, where its entities are as in a store: every layer
loses its link and is destroyed, and the object at the bottom gets an owner. -/
def ComesOff (st : Store) (slot : Slot) (layers : List Peel) (top bottom : Id)
    (view : OwnedInterface) : Prop :=
  ∀ (s : State) (source : String), s.world.IsTolerant → s.slots.find? source = some slot →
    (∀ z ∈ st.chain top, s.world.store.get? z = st.get? z) →
    s.slots.Free (layers.flatMap Peel.names) →
    s.Leads (peeling slot.side source layers)
        (s.world.store.modifyAll (st.chain top).dropLast Node.unlinked)
        (source :: layers.flatMap Peel.names) ∧
      (s.after (peeling slot.side source layers)).slots.find? (innermost source layers) =
        some (.owner bottom view)

/-- A layer comes off, and then those below. -/
theorem ComesOff.cons {slot' : Slot} {first : List Step} (h : ComesOff st slot' rest y bottom view)
    (hs : st.Sound) (hbelow : st.below? top = some y) (ht : s.world.IsTolerant)
    (hsource : s.slots.find? source = some slot)
    (hsame : ∀ z ∈ st.chain top, s.world.store.get? z = st.get? z)
    (hfree : s.slots.Free ((l :: rest).flatMap Peel.names))
    (hfirst : s.Leads first (s.world.store.modify top Node.unlinked) (source :: l.names))
    (hnext : (s.after first).slots.find? l.name = some slot') :
    s.Leads (first ++ peeling slot'.side l.name rest)
        (s.world.store.modifyAll (st.chain top).dropLast Node.unlinked)
        (source :: (l :: rest).flatMap Peel.names) ∧
      (s.after (first ++ peeling slot'.side l.name rest)).slots.find? (innermost l.name rest) =
        some (.owner bottom view) := by
  have hlt : y < top := hs.earlier top y hbelow
  have hchain : st.chain top = top :: st.chain y := by
    rw [Store.chain_eq_cons hs.earlier, hbelow]
    rfl
  rw [List.flatMap_cons] at hfree
  obtain ⟨hnames, hrest, hdisjoint⟩ := hfree.append
  have hfree₁ : (s.after first).slots.Free (rest.flatMap Peel.names) := by
    refine hrest.of_eq fun name hname => hfirst.others name fun hmem => ?_
    rcases List.mem_cons.mp hmem with rfl | hmem
    · cases (hrest.2 name hname).symm.trans hsource
    · exact hdisjoint name hmem hname
  have hsame₁ : ∀ z ∈ st.chain y, (s.after first).world.store.get? z = st.get? z := by
    rw [hfirst.world.store]
    exact Store.get?_modify_above hs hlt (hchain ▸ hsame) _
  obtain ⟨hleads, hresult⟩ := h _ _ (hfirst.world.isTolerant ht) hnext hsame₁ hfree₁
  have hstore : (s.after first).world.store.modifyAll (st.chain y).dropLast Node.unlinked =
      s.world.store.modifyAll (st.chain top).dropLast Node.unlinked := by
    have hne : st.chain y ≠ [] := List.ne_nil_of_mem (Store.mem_chain_self hs.earlier y)
    rw [hfirst.world.store, Store.modifyAll_modify, hchain, List.dropLast_cons_of_ne_nil hne]
  rw [hstore] at hleads
  refine ⟨(hfirst.append hleads).mono fun name hname => ?_, ?_⟩
  · rw [List.flatMap_cons, List.mem_cons, List.mem_append]
    simp only [List.mem_append, List.mem_cons] at hname
    rcases hname with (hname | hname) | hname | hname
    · exact Or.inl hname
    · exact Or.inr (Or.inl hname)
    · exact Or.inr (Or.inl (hname ▸ l.name_mem))
    · exact Or.inr (Or.inr hname)
  · rw [State.after_append]
    exact hresult

/-- On the near side the structure is taken out of a proxy, if need be after an upcast. -/
theorem ComesOff.of_proxy {x z : Id} {view view' : OwnedInterface} {label : String} {p : OwnedProxy}
    (h : ComesOff st (.struct z) rest z bottom view') (hs : st.Sound)
    (hn : st.get? x = some ⟨label, .ownedProxy p, true⟩) (hp : p.target = some z)
    (hz : st.OwnedTower OwnedWrapper.IsWhole bottom o z) (hsuits : l.Suits view)
    (hc : l.cls.Recovers p.cls) : ComesOff st (.owner x view) (l :: rest) x bottom view' := by
  intro s source ht hsource hsame hfree
  obtain ⟨_, v, hv, -, hoffers⟩ := hz.target hs hn hp
  have hbelow : st.below? x = some z := (Store.below?_eq_some hn).trans hp
  have hself := Store.mem_chain_self hs.earlier
  have hmem : z ∈ st.chain x := Store.mem_chain_of_below hs.earlier hbelow z (hself z)
  have hnames := (List.flatMap_cons ▸ hfree).append.1
  obtain ⟨hcast, howner⟩ := Peel.leads_casting hsuits hsource fun via hvia =>
    hnames.2 via (l.cast_mem hvia)
  have hstore := hcast.world.store
  have hx₁ := (hstore ▸ hsame x (hself x)).trans hn
  have hz₁ := (hstore ▸ hsame z hmem).trans hv
  have hname₁ : (s.after (l.casting source)).slots.find? l.name = none := by
    rw [hcast.others l.name fun hmem => ?_]
    · exact hnames.2 _ l.name_mem
    · rcases List.mem_cons.mp hmem with heq | hmem
      · cases (heq ▸ hnames.2 _ l.name_mem).symm.trans hsource
      · exact l.name_not_mem_cast hnames.1 hmem
  have hreaches := reaches_surrender (hcast.world.isTolerant ht) howner hname₁ hx₁ hc hp hz₁ rfl
    rfl (Structure.isSet_of_offers (hoffers 0 (by decide)))
  refine h.cons hs hbelow ht hsource hsame hfree ?_ ?_
  · rw [← hstore]
    refine (hcast.append (hreaches.leads fun _ => Slots.find?_exchanged _)).mono ?_
    exact fun name hname => l.crossing_mem hname
  · rw [State.after_append]
    exact hreaches.find?

/-- On the far side the object is taken out of a wrapper. -/
theorem ComesOff.of_wrapper {x y : Id} {label : String} {v : OwnedWrapper}
    (h : ComesOff st (.owner y l.cls.ownedInterface) rest y bottom view) (hs : st.Sound)
    (hn : st.get? x = some ⟨label, .ownedWrapper v, true⟩) (hv : v.object = some y)
    (howns : v.owns = true) (hc : l.cls.ownedClass.Recovers v.cls) :
    ComesOff st (.struct x) (l :: rest) x bottom view := by
  intro s source ht hsource hsame hfree
  have hbelow : st.below? x = some y := (Store.below?_eq_some hn).trans hv
  have hnames := (List.flatMap_cons ▸ hfree).append.1
  have hx₁ := (hsame x (Store.mem_chain_self hs.earlier x)).trans hn
  have hreaches := reaches_takeBack ht hsource (hnames.2 _ l.name_mem) hx₁ hc howns hv
  rw [ProxyClass.interface_ownedClass] at hreaches
  refine h.cons hs hbelow ht hsource hsame hfree ?_ hreaches.find?
  refine (hreaches.leads fun _ => Slots.find?_added _).mono fun name hname => ?_
  exact List.mem_cons_of_mem _ (List.mem_singleton.mp hname ▸ l.name_mem)

/-- Towers of any height come off. -/
theorem Peels.comesOff (h : Peels st slot layers view) (hs : st.Sound) (hslot : slot.Tops st top)
    (htower : st.OwnedTower OwnedWrapper.IsWhole bottom o top) :
    ComesOff st slot layers top bottom view := by
  induction h generalizing top with
  | bare hn =>
    cases hslot
    cases htower.of_object hn
    obtain ⟨_, hbottom⟩ := htower.get?_bottom
    intro s source _ hsource _ _
    rw [Store.OwnedTower.chain_bottom hs hbottom]
    exact ⟨.nil s _, hsource⟩
  | proxy hn hp hsuits hc _ ih =>
    cases hslot
    have hbelow := htower.of_proxy hn hp
    have hlink := (hs.linked _ _ _ hn hp).2
    exact (ih (.struct hlink) hbelow).of_proxy hs hn hp hbelow hsuits hc
  | wrapper hn hv hc _ ih =>
    cases hslot
    obtain ⟨howns, hbelow⟩ := htower.of_wrapper hn hv
    have hlink := (hs.linked _ _ _ hn hv).2
    exact (ih (.owner _ hlink) hbelow).of_wrapper hs hn hv howns hc

/-! ## Every tower can be peeled -/

/-- Layers that the parent class takes off without any upcast. -/
def plainPeels (names : List String) : List Peel := names.map fun name => ⟨.client, none, name⟩

theorem flatMap_plainPeels (names : List String) :
    (plainPeels names).flatMap Peel.names = names := by
  induction names with
  | nil => rfl
  | cons name names ih =>
    show name :: (plainPeels names).flatMap Peel.names = _
    rw [ih]

variable {P : OwnedWrapper → Prop} {names : List String}

/-- A layer takes a name. -/
theorem exists_cons_of_below (hs : st.Sound) (hbelow : st.below? top = some y)
    (hnames : names.length + 1 = (st.chain top).length) :
    ∃ name rest, names = name :: rest ∧ rest.length + 1 = (st.chain y).length := by
  rw [Store.chain_eq_cons hs.earlier, hbelow, Option.elim_some, List.length_cons] at hnames
  have hpos : 0 < (st.chain y).length :=
    List.length_pos_of_mem (Store.mem_chain_self hs.earlier y)
  cases names with
  | nil =>
    rw [List.length_nil] at hnames
    omega
  | cons name rest => exact ⟨name, rest, rfl, Nat.succ.inj hnames⟩

/-- The parent class takes off all layers of a tower whose top is held under its interface. -/
theorem peels_plain (h : st.OwnedTower P bottom o top) (hs : st.Sound) (hslot : slot.Tops st top)
    (hview : ∀ view, slot = .owner top view → view = .client)
    (hnames : names.length + 1 = (st.chain top).length) :
    Peels st slot (plainPeels names) .client := by
  induction h generalizing slot names with
  | object hn _ =>
    rw [Store.chain_eq_cons hs.earlier, Store.below?, hn] at hnames
    cases List.length_eq_zero_iff.mp (Nat.succ.inj hnames)
    rcases hslot.cases_of hn with ⟨view, rfl, -⟩ | ⟨-, hrole⟩
    · cases hview view rfl
      exact .bare hn
    · cases hrole
  | @wrapper x y _ v hn hcls _ hy _ _ ih =>
    obtain ⟨name, rest, rfl, hrest⟩ :=
      exists_cons_of_below hs ((Store.below?_eq_some hn).trans hy) hnames
    have hlink := (hs.linked x _ y hn hy).2
    have hrecovers : OwnedClass.client.Recovers v.cls :=
      hcls.imp Eq.symm fun hchild => ⟨rfl, hchild⟩
    have hbelow : Peels st (.owner y .client) (plainPeels rest) .client :=
      ih (.owner _ hlink) (fun _ heq => by cases heq; rfl) hrest
    rcases hslot.cases_of hn with ⟨_, -, hrole⟩ | ⟨rfl, -⟩
    · cases hrole
    · exact .wrapper hn hy hrecovers hbelow
  | @proxy x y _ p hn hy _ ih =>
    obtain ⟨name, rest, rfl, hrest⟩ :=
      exists_cons_of_below hs ((Store.below?_eq_some hn).trans hy) hnames
    have hlink := (hs.linked x _ y hn hy).2
    have hbelow : Peels st (.struct y) (plainPeels rest) .client :=
      ih (.struct hlink) (fun _ heq => by cases heq) hrest
    rcases hslot.cases_of hn with ⟨view, rfl, -⟩ | ⟨-, hrole⟩
    · cases hview view rfl
      exact .proxy hn hy rfl (recovers_client p.cls) hbelow
    · cases hrole

/-- Every tower can be peeled, if need be after one upcast at the top. -/
theorem exists_peels {slots : Slots} {via : String} (h : st.OwnedTower P bottom o top)
    (hs : st.Sound) (hslot : slot.Tops st top)
    (hnames : names.length + 1 = (st.chain top).length) (hfree : slots.Free ([via] ++ names)) :
    ∃ layers view, Peels st slot layers view ∧ slots.Free (layers.flatMap Peel.names) := by
  by_cases hview : ∀ view, slot = .owner top view → view = .client
  · refine ⟨_, _, peels_plain h hs hslot hview hnames, ?_⟩
    rw [flatMap_plainPeels]
    exact hfree.append.2.1
  · push Not at hview
    obtain ⟨view, rfl, hne⟩ := hview
    cases view with
    | client => exact absurd rfl hne
    | child =>
      cases h with
      | object hn _ => exact ⟨[], .child, .bare hn, List.nodup_nil, List.forall_mem_nil _⟩
      | wrapper hn _ _ _ _ _ =>
        obtain ⟨_, -, hrole⟩ | ⟨heq, -⟩ := hslot.cases_of hn
        · cases hrole
        · cases heq
      | proxy hn hy h =>
        obtain ⟨name, rest, rfl, hrest⟩ :=
          exists_cons_of_below hs ((Store.below?_eq_some hn).trans hy) hnames
        have hlink := (hs.linked top _ _ hn hy).2
        have hbelow : Peels st (.struct _) (plainPeels rest) .client :=
          peels_plain h hs (.struct hlink) (fun _ heq => by cases heq) hrest
        refine ⟨⟨.client, some via, name⟩ :: plainPeels rest, .client,
          .proxy hn hy ⟨rfl, rfl⟩ (recovers_client _) hbelow, ?_⟩
        rw [List.flatMap_cons, flatMap_plainPeels]
        exact hfree

end Layers

end ObjectBoundary.Session
