import ObjectBoundary.Proofs.Session.Chains
import ObjectBoundary.Proofs.Session.Exchange

/-!
# Round trips across the boundary

A handle or structure that crosses the boundary back and forth becomes a tower of wrappers and
proxies. Undone layer by layer, by the classes that made the layers or by the parent class of the
child, the tower gives back what it began with. All that was made on the way is gone then, and
after every step what was there before is as it was.

* `trip`: the steps that make a tower and undo it.
* `Typed`: which classes and upcasts the interfaces allow.
* `State.RoundTrip`: what such steps come to.
* `handlesReturn_cons`, `structsReturn_cons`: one layer around a trip.
* `round_trips`: towers of any height.
* `not_round_trips_unreleased`: it takes the members that count references.
-/

namespace ObjectBoundary.Session

open ObjectBoundary Act

variable {s : State} {x : Step} {st st' : Store} {source name result : String}

/-! ## Towers made and undone -/

/-- The sides of the boundary on which a handle and a structure are used. -/
inductive Side where
  | near
  | far

/-- A layer of a tower: the classes that make and undo it, and the names under which the session
keeps what comes of it. -/
structure Layer where
  made : ProxyClass
  undone : ProxyClass
  /-- The name of a handle under the parent interface, if the handle that crosses is upcast. -/
  cast : Option String
  name : String
  back : String

namespace Layer

def names (l : Layer) : List String := l.cast.toList ++ [l.name, l.back]

/-- Upcasts a handle, if it is to be. -/
def casting (l : Layer) (source : String) : List Step :=
  match l.cast with
  | none => []
  | some via => [.handle (.upcast source .client via)]

/-- The handle that crosses. -/
def handle (l : Layer) (source : String) : String := l.cast.getD source

/-- A handle under an interface suits a class, at once or after the upcast. -/
def Suits (l : Layer) (view : SharedInterface) (c : ProxyClass) : Prop :=
  if l.cast.isSome then view = .child ∧ c = .client else view = c.sharedInterface

end Layer

/-- The name under which comes back what a trip began with. -/
def ending (source : String) : List Layer → String
  | [] => source
  | l :: _ => l.back

/-- The interface under which a handle comes back. -/
def endView (view : SharedInterface) : List Layer → SharedInterface
  | [] => view
  | l :: _ => l.undone.sharedInterface

/-- Makes the layers of a tower one after the other, and then undoes them in reverse order. On
the near side a handle is wrapped, and on the far side a proxy of a structure is made. -/
def trip : Side → String → List Layer → List Step
  | _, _, [] => []
  | .near, source, l :: rest =>
    (l.casting source ++ [.shared (.wrap l.made.wrapper (some (l.handle source)) l.name)]) ++
      (trip .far l.name rest ++
        [.shared (.unwrap l.undone.wrapper (some (ending l.name rest)) l.back)])
  | .far, source, l :: rest =>
    [.shared (.receive l.made (some source) l.name)] ++
      (trip .near l.name rest ++
        (l.casting (ending l.name rest) ++
          [.shared (.giveBack l.undone (some (l.handle (ending l.name rest))) l.back)]))

/-- The layers that a tower over a handle under an interface, or over a structure, can have. The
class that undoes a layer is the one that made it or the parent class of the child. -/
def Typed : Option SharedInterface → List Layer → Prop
  | _, [] => True
  | some view, l :: rest =>
    l.Suits view l.made ∧ l.undone.Recovers l.made ∧ Typed none rest
  | none, l :: rest =>
    l.undone.Recovers l.made ∧ Typed (some l.made.sharedInterface) rest ∧
      l.Suits (endView l.made.sharedInterface rest) l.undone

/-- Names that can be given to new slots. -/
def Slots.Free (slots : Slots) (names : List String) : Prop :=
  names.Nodup ∧ ∀ name ∈ names, slots.find? name = none

/-- What a slot can begin a trip with: a handle, the structure of a reference counted entity, or
nothing. -/
inductive State.Starts (s : State) (layers : List Layer) : Side → Slot → Prop
  | handle {o : Id} {view : SharedInterface} : s.world.store.Ready o → Typed (some view) layers →
      s.Starts layers .near (.handle o view)
  | struct {z : Id} : s.world.store.HasRole z .sharedStructure → s.world.store.Ready z →
      Typed none layers → s.Starts layers .far (.struct z)
  | null {side : Side} : (∀ l ∈ layers, l.cast = none) → s.Starts layers side .null

/-- What comes back of what a trip began with. -/
def Slot.returned (layers : List Layer) : Slot → Slot
  | .handle o view => .handle o (endView view layers)
  | slot => slot

/-- Steps that make some entities and destroy them, leave all that was there before as it was, and
have a slot in the end. -/
structure State.RoundTrip (s : State) (steps : List Step) (names : List String) (result : String)
    (slot : Slot) (made : Nat) : Prop extends State.Spares s s.world.store steps names where
  size : (s.after steps).world.store.size = s.world.store.size + made
  gone : ∀ z, s.world.store.size ≤ z → ¬ (s.after steps).world.store.IsLive z
  returned : (s.after steps).slots.find? result = some slot

section Names

variable {l : Layer} {rest layers : List Layer} {slots : Slots}

theorem ending_mem (source : String) (layers : List Layer) :
    ending source layers ∈ source :: layers.flatMap Layer.names := by
  cases layers with
  | nil => exact List.mem_cons_self
  | cons l rest => simp [ending, Layer.names]

theorem Layer.name_mem (l : Layer) : l.name ∈ l.names :=
  List.mem_append_right _ List.mem_cons_self

theorem Layer.back_mem (l : Layer) : l.back ∈ l.names :=
  List.mem_append_right _ (List.mem_cons_of_mem _ List.mem_cons_self)

theorem Layer.cast_mem (l : Layer) {via : String} (h : via ∈ l.cast) : via ∈ l.names :=
  List.mem_append_left _ (Option.mem_toList.mpr h)

theorem Layer.crossing_mem (l : Layer) {name other : String} (hname : name ∈ l.names)
    (h : other ∈ l.cast.toList ++ [name]) : other ∈ l.names := by
  rcases List.mem_append.mp h with h | h
  · exact List.mem_append_left _ h
  · exact List.mem_singleton.mp h ▸ hname

theorem Layer.handle_mem (l : Layer) (source : String) :
    l.handle source = source ∨ l.handle source ∈ l.cast := by
  unfold handle
  cases l.cast with
  | none => exact Or.inl rfl
  | some via => exact Or.inr rfl

theorem Layer.names_nodup (h : l.names.Nodup) :
    l.name ∉ l.cast.toList ∧ l.back ∉ l.cast.toList ∧ l.name ≠ l.back := by
  obtain ⟨-, hpair, hdisjoint⟩ := List.nodup_append.mp h
  refine ⟨fun hmem => hdisjoint _ hmem _ List.mem_cons_self rfl, fun hmem => ?_, ?_⟩
  · exact hdisjoint _ hmem _ (List.mem_cons_of_mem _ List.mem_cons_self) rfl
  · exact fun heq => (List.nodup_cons.mp hpair).1 (heq ▸ List.mem_cons_self)

/-- Names that are free together are free in two parts, which differ. -/
theorem Slots.Free.append {names names' : List String} (h : slots.Free (names ++ names')) :
    slots.Free names ∧ slots.Free names' ∧ ∀ name ∈ names, name ∉ names' := by
  obtain ⟨hnodup, hfree⟩ := h
  obtain ⟨hnames, hnames', hdisjoint⟩ := List.nodup_append.mp hnodup
  exact ⟨⟨hnames, fun name hname => hfree name (List.mem_append_left _ hname)⟩,
    ⟨hnames', fun name hname => hfree name (List.mem_append_right _ hname)⟩,
    fun name hname hmem => hdisjoint name hname name hmem rfl⟩

/-- The names of a layer and of those after it are free, and they differ. -/
theorem Slots.Free.cons (h : slots.Free ((l :: rest).flatMap Layer.names)) :
    slots.Free l.names ∧ slots.Free (rest.flatMap Layer.names) ∧
      ∀ name ∈ l.names, name ∉ rest.flatMap Layer.names := by
  rw [List.flatMap_cons] at h
  exact h.append

theorem Slots.Free.of_eq {slots' : Slots} {names : List String} (h : slots.Free names)
    (hsame : ∀ name ∈ names, slots'.find? name = slots.find? name) : slots'.Free names :=
  ⟨h.1, fun name hname => (hsame name hname).trans (h.2 name hname)⟩

end Names

/-! ## One layer around the others -/

section Layers

variable {l : Layer} {rest layers : List Layer}

/-- A handle that suits a class crosses to it, at once or after the upcast. -/
theorem Layer.spares_casting {o : Id} {view : SharedInterface} {c : ProxyClass}
    (hsuits : l.Suits view c) (hslot : s.slots.find? source = some (.handle o view))
    (hfree : ∀ via ∈ l.cast, s.slots.find? via = none) (hk : st.Keeps s.world.store) :
    s.Spares st (l.casting source) (source :: l.cast.toList) ∧
      (s.after (l.casting source)).world.store = s.world.store ∧
      (s.after (l.casting source)).slots.find? (l.handle source) =
        some (.handle o c.sharedInterface) := by
  unfold Layer.Suits at hsuits
  unfold Layer.casting Layer.handle
  cases hcast : l.cast with
  | none =>
    rw [hcast] at hsuits
    refine ⟨.nil s st _, rfl, ?_⟩
    rw [← show view = c.sharedInterface from hsuits]
    exact hslot
  | some via =>
    rw [hcast] at hsuits hfree
    obtain ⟨rfl, rfl⟩ : view = .child ∧ c = .client := hsuits
    have hreaches := reaches_upcast .client hslot rfl (hfree via rfl)
    exact ⟨hreaches.spares_exchange hk, hreaches.world.store, hreaches.find?⟩

/-- What is made around a round trip and then loses its only reference is gone with the rest. -/
theorem State.RoundTrip.enclose {before inner undo : List Step} {names names' names'' : List String}
    {n : Node} {made : Nat} {slot slot' : Slot} {within : String}
    (hbefore : s.Spares s.world.store before names)
    (hpush : (s.after before).world.store = s.world.store.push n)
    (hinner : (s.after before).RoundTrip inner names' within slot' made)
    (hundo : ((s.after before).after inner).Spares s.world.store undo names'')
    (hlowered : (((s.after before).after inner).after undo).world.store =
      ((s.after before).after inner).world.store.modify s.world.store.size Node.lowered)
    (hlast : n.lowered.live = false)
    (hresult : (((s.after before).after inner).after undo).slots.find? result = some slot) :
    s.RoundTrip (before ++ (inner ++ undo)) (names ++ (names' ++ names'')) result slot
      (made + 1) := by
  have hadded : s.world.store.Keeps (s.after before).world.store :=
    hpush ▸ Store.keeps_push _ _
  have hsize : (s.after before).world.store.size = s.world.store.size + 1 := by
    rw [hpush, Store.size_push]
  have hkept := hinner.toSpares.keeps (Store.Keeps.refl _)
  have hnew : ((s.after before).after inner).world.store.get? s.world.store.size = some n := by
    rw [hkept _ (hsize ▸ Nat.lt_succ_self _), hpush, Store.get?_push_size]
  refine ⟨hbefore.append ((hinner.toSpares.mono hadded fun _ h => h).append hundo), ?_, ?_, ?_⟩
  · rw [State.after_append, State.after_append, hlowered, Store.size_modify, hinner.size, hsize]
    omega
  · intro z hz
    rw [State.after_append, State.after_append, hlowered]
    rintro ⟨m, hm, hlive⟩
    rw [Store.get?_modify] at hm
    split at hm
    · rename_i heq
      subst heq
      rw [hnew] at hm
      cases hm
      exact absurd (hlive.symm.trans hlast) Bool.noConfusion
    · rename_i hne
      have hle : (s.after before).world.store.size ≤ z :=
        hsize ▸ Nat.lt_of_le_of_ne hz hne
      exact hinner.gone z hle ⟨m, hm, hlive⟩
  · rw [State.after_append, State.after_append]
    exact hresult

theorem State.RoundTrip.mono {steps : List Step} {names names' : List String} {slot : Slot}
    {made : Nat} (h : s.RoundTrip steps names result slot made)
    (hnames : ∀ name ∈ names, name ∈ names') : s.RoundTrip steps names' result slot made :=
  ⟨h.toSpares.mono (.refl _) hnames, h.size, h.gone, h.returned⟩

/-- A step by which a handle crosses follows the upcast. -/
theorem Layer.spares_crossing {o : Id} {view : SharedInterface} {c : ProxyClass} {out : Ledger}
    {slot : Slot} (hb : Balanced s out) (ht : s.world.IsTolerant) (hsuits : l.Suits view c)
    (hslot : s.slots.find? source = some (.handle o view))
    (hfree : ∀ via ∈ l.cast, s.slots.find? via = none) (hname : s.slots.find? name = none)
    (hcast : name ∉ l.cast.toList) (hk : st.Keeps s.world.store) (hk' : st.Keeps st')
    (hcross : ∀ {t : State} {out : Ledger}, Balanced t out → t.world.IsTolerant →
      t.world.store = s.world.store →
      t.slots.find? (l.handle source) = some (.handle o c.sharedInterface) →
      t.slots.find? name = none →
      t.Reaches x st' ((t.slots.without (l.handle source)).add name slot)) :
    s.Spares st (l.casting source ++ [x]) (source :: (l.cast.toList ++ [name])) ∧
      (s.after (l.casting source ++ [x])).world.store = st' ∧
      (s.after (l.casting source ++ [x])).slots.find? name = some slot := by
  obtain ⟨hspares, hstore, hslot'⟩ := l.spares_casting hsuits hslot hfree hk
  obtain ⟨out', hb'⟩ := hspares.balanced hb
  have hne : name ≠ source := by
    rintro rfl
    cases hname.symm.trans hslot
  have hname' : (s.after (l.casting source)).slots.find? name = none := by
    rw [hspares.others name fun hmem => (List.mem_cons.mp hmem).elim hne hcast]
    exact hname
  have hreaches := hcross hb' (hspares.tolerant ht) hstore hslot' hname'
  refine ⟨(hspares.append (hreaches.spares_exchange hk')).mono (.refl st) fun other hother => ?_,
    ?_, ?_⟩
  · simp only [List.mem_append, List.mem_cons, List.not_mem_nil, or_false] at hother ⊢
    rcases hother with (h | h) | h | h
    · exact Or.inl h
    · exact Or.inr (Or.inl h)
    · exact h ▸ (l.handle_mem source).imp id fun hmem => Or.inl (Option.mem_toList.mpr hmem)
    · exact Or.inr (Or.inr h)
  · rw [State.after_append]
    exact hreaches.world.store
  · rw [State.after_append]
    exact hreaches.find?

/-- Every handle under an interface comes back from such a trip. -/
def HandlesReturn (view : SharedInterface) (layers : List Layer) : Prop :=
  ∀ {s : State} {out : Ledger} {source : String} {o : Id}, Balanced s out → s.world.IsTolerant →
    s.slots.find? source = some (.handle o view) → s.world.store.Ready o →
    s.slots.Free (layers.flatMap Layer.names) →
    s.RoundTrip (trip .near source layers) (source :: layers.flatMap Layer.names)
      (ending source layers) (.handle o (endView view layers)) layers.length

/-- Every structure comes back from such a trip. -/
def StructsReturn (layers : List Layer) : Prop :=
  ∀ {s : State} {out : Ledger} {source : String} {z : Id}, Balanced s out → s.world.IsTolerant →
    s.slots.find? source = some (.struct z) → s.world.store.HasRole z .sharedStructure →
    s.world.store.Ready z → s.slots.Free (layers.flatMap Layer.names) →
    s.RoundTrip (trip .far source layers) (source :: layers.flatMap Layer.names)
      (ending source layers) (.struct z) layers.length

/-- A trip without a layer ends where it begins. -/
theorem roundTrip_nil {slot : Slot} (hslot : s.slots.find? source = some slot) :
    s.RoundTrip [] [source] source slot 0 := by
  refine ⟨.nil s _ _, rfl, fun z hz => ?_, hslot⟩
  rintro ⟨n, hn, -⟩
  exact absurd (Store.lt_size hn) (Nat.not_lt_of_le hz)

/-- A handle that crosses comes back around a trip of the structure of its wrapper. -/
theorem handlesReturn_cons {view : SharedInterface} (hsuits : l.Suits view l.made)
    (hrecovers : l.undone.Recovers l.made) (hrest : StructsReturn rest) :
    HandlesReturn view (l :: rest) := by
  intro s out source o hb ht hslot hready hnames
  obtain ⟨⟨hnodup, hfree⟩, hfree', hdisjoint⟩ := hnames.cons
  obtain ⟨hname, hback, hne⟩ := Layer.names_nodup hnodup
  have hsource {name : String} (hfree : s.slots.find? name = none) : name ≠ source := by
    rintro rfl
    cases hfree.symm.trans hslot
  -- The handle is wrapped.
  obtain ⟨hbefore, hpush, hslot₁⟩ := l.spares_crossing hb ht hsuits hslot
    (fun via hvia => hfree via (l.cast_mem hvia)) (hfree _ l.name_mem) hname (.refl _)
    (Store.keeps_push _ _) fun {t} {out} hb' ht' hstore hslot' hname' => by
      have hreaches := reaches_wrap (c := l.made.wrapper) hb' ht' hname'
        (l.made.interface_wrapper ▸ hslot') (hstore ▸ hready)
      rwa [hstore] at hreaches
  obtain ⟨out₁, hb₁⟩ := hbefore.balanced hb
  have hl₁ := hb₁.sound.linked
  have hn₁ := Store.get?_push_size s.world.store
    ⟨l.name, .sharedWrapper ⟨l.made.wrapper, o, l.made.wrapper.newStruct, Count.zero.succ⟩, true⟩
  rw [hpush] at hl₁
  have hready₁ := hready.push hb.sound.linked hl₁ rfl rfl rfl (SharedClass.counts_newStruct _) rfl
  rw [← hpush] at hn₁ hready₁
  -- The structure of the wrapper makes its own trip.
  have hin := hrest hb₁ (hbefore.tolerant ht) hslot₁ ⟨_, hn₁, rfl⟩ hready₁
    (hfree'.of_eq fun other hother => hbefore.others other fun hmem =>
      (List.mem_cons.mp hmem).elim (hsource (hfree'.2 other hother)) fun hmem =>
        hdisjoint other (l.crossing_mem l.name_mem hmem) hother)
  obtain ⟨out₂, hb₂, hn₂, hready₂⟩ := hin.toSpares.stands hb₁ hn₁ hready₁
  have hback₂ := hbefore.free_after hin.toSpares (hfree _ l.back_mem)
    (fun hmem => (List.mem_cons.mp hmem).elim (hsource (hfree _ l.back_mem)) fun hmem =>
      (List.mem_append.mp hmem).elim hback fun hmem => hne (List.mem_singleton.mp hmem).symm)
    fun hmem => (List.mem_cons.mp hmem).elim hne.symm (hdisjoint _ l.back_mem)
  -- The wrapper gives the object back.
  have hunwrap := reaches_unwrap (c := l.undone.wrapper) hb₂
    (hin.tolerant (hbefore.tolerant ht)) hback₂ hin.returned hn₂ hready₂ hrecovers.wrapper
  have hundo := hunwrap.spares_add (((hbefore.keeps (.refl _)).trans
    (hin.toSpares.keeps (.refl _))).modify (Nat.le_refl _) Node.lowered)
  have hresult := hunwrap.find?
  rw [ProxyClass.interface_wrapper] at hresult
  refine (State.RoundTrip.enclose hbefore hpush hin hundo hunwrap.world.store rfl hresult).mono ?_
  intro other hother
  simp only [List.flatMap_cons, Layer.names, List.mem_append, List.mem_cons, List.not_mem_nil,
    or_false] at hother ⊢
  tauto

/-- A structure that crosses comes back around a trip of the handle to its proxy. -/
theorem structsReturn_cons (hrecovers : l.undone.Recovers l.made)
    (hrest : HandlesReturn l.made.sharedInterface rest)
    (hsuits : l.Suits (endView l.made.sharedInterface rest) l.undone) :
    StructsReturn (l :: rest) := by
  intro s out source z hb ht hslot hrole hready hnames
  obtain ⟨⟨hnodup, hfree⟩, hfree', hdisjoint⟩ := hnames.cons
  obtain ⟨hname, hback, hne⟩ := Layer.names_nodup hnodup
  -- A proxy of the structure is made.
  have hreceive := reaches_receive (c := l.made) hb ht (hfree _ l.name_mem) hslot hrole hready
  have hbefore := hreceive.spares_add (Store.keeps_push s.world.store _)
  have hpush := hreceive.world.store
  obtain ⟨out₁, hb₁⟩ := hbefore.balanced hb
  have hl₁ : (s.step _).2.world.store.Linked := hb₁.sound.linked
  have hn₁ := Store.get?_push_size s.world.store
    ⟨l.name, .sharedProxy ⟨l.made, z, Count.zero.succ⟩, true⟩
  rw [hpush] at hl₁
  have hready₁ := hready.push hb.sound.linked hl₁ rfl rfl rfl rfl rfl
  rw [← hpush] at hn₁ hready₁
  -- The handle to the proxy makes its own trip.
  have hin := hrest hb₁ (hbefore.tolerant ht) hreceive.find? hready₁
    (hfree'.of_eq fun other hother => hbefore.others other fun hmem =>
      hdisjoint _ l.name_mem (List.mem_singleton.mp hmem ▸ hother))
  obtain ⟨out₂, hb₂, hn₂, hready₂⟩ := hin.toSpares.stands hb₁ hn₁ hready₁
  have hkept := (hbefore.keeps (.refl _)).trans (hin.toSpares.keeps (.refl _))
  have hfree₂ {other : String} (hmem : other ∈ l.names) (hother : other ≠ l.name) :=
    hbefore.free_after hin.toSpares (hfree other hmem)
      (fun h => hother (List.mem_singleton.mp h))
      fun h => (List.mem_cons.mp h).elim hother (hdisjoint _ hmem)
  -- The proxy gives the structure back.
  obtain ⟨hundo, hlowered, hresult⟩ := l.spares_crossing hb₂ (hin.tolerant (hbefore.tolerant ht))
    hsuits hin.returned
    (fun via hvia => hfree₂ (l.cast_mem hvia) fun heq => hname (heq ▸ Option.mem_toList.mpr hvia))
    (hfree₂ l.back_mem hne.symm) hback hkept (hkept.modify (Nat.le_refl _) Node.lowered)
    fun {t} {out} hb' ht' hstore hslot' hname' => by
      rw [← hstore] at hn₂ hready₂ ⊢
      exact reaches_giveBack hb' ht' hname' hslot' hn₂ hready₂ hrecovers
  refine (State.RoundTrip.enclose hbefore hpush hin hundo hlowered rfl hresult).mono ?_
  intro other hother
  have hending := ending_mem l.name rest
  simp only [List.flatMap_cons, Layer.names, List.mem_append, List.mem_cons, List.not_mem_nil,
    or_false] at hother hending ⊢
  rcases hother with h | (h | h) | h | h | h
  all_goals first | (rw [h]; tauto) | tauto

/-- Whatever its height, a tower gives back what it began with. -/
theorem returns_of_typed (layers : List Layer) :
    (∀ view, Typed (some view) layers → HandlesReturn view layers) ∧
      (Typed none layers → StructsReturn layers) := by
  induction layers with
  | nil =>
    refine ⟨fun view _ => ?_, fun _ => ?_⟩
    · intro s out source o _ _ hslot _ _
      exact roundTrip_nil hslot
    · intro s out source z _ _ hslot _ _ _
      exact roundTrip_nil hslot
  | cons l rest ih =>
    refine ⟨fun view htyped => ?_, fun htyped => ?_⟩
    · obtain ⟨hsuits, hrecovers, htyped⟩ := htyped
      exact handlesReturn_cons hsuits hrecovers (ih.2 htyped)
    · obtain ⟨hrecovers, htyped, hsuits⟩ := htyped
      exact structsReturn_cons hrecovers (ih.1 _ htyped) hsuits

end Layers

/-! ## Nothing crosses -/

section Nothing

variable {l : Layer} {rest layers : List Layer} {side : Side}

/-- Without upcasts a trip makes a layer, goes on and undoes the layer. -/
theorem exists_crosses (hcast : l.cast = none) (rest : List Layer) (side : Side) (source : String) :
    ∃ side' x y, Crosses source l.name x ∧ Crosses (ending l.name rest) l.back y ∧
      trip side source (l :: rest) = [x] ++ (trip side' l.name rest ++ [y]) := by
  cases side with
  | near =>
    refine ⟨.far, _, _, .wrap l.made.wrapper, .unwrap l.undone.wrapper, ?_⟩
    simp only [trip, Layer.casting, Layer.handle, hcast, Option.getD_none, List.nil_append]
  | far =>
    refine ⟨.near, _, _, .receive l.made, .giveBack l.undone, ?_⟩
    simp only [trip, Layer.casting, Layer.handle, hcast, Option.getD_none, List.nil_append]

/-- Where nothing crosses, nothing comes back, and nothing is made for it. -/
theorem roundTrip_null (hcast : ∀ l ∈ layers, l.cast = none)
    (hslot : s.slots.find? source = some .null)
    (hnames : s.slots.Free (layers.flatMap Layer.names)) :
    s.RoundTrip (trip side source layers) (source :: layers.flatMap Layer.names)
        (ending source layers) .null 0 ∧
      (s.after (trip side source layers)).world.store = s.world.store := by
  induction layers generalizing s side source with
  | nil => cases side <;> exact ⟨roundTrip_nil hslot, rfl⟩
  | cons l rest ih =>
    obtain ⟨⟨hnodup, hfree⟩, hfree', hdisjoint⟩ := hnames.cons
    obtain ⟨-, -, hne⟩ := Layer.names_nodup hnodup
    obtain ⟨side', x, y, hx, hy, htrip⟩ :=
      exists_crosses (hcast l List.mem_cons_self) rest side source
    rw [htrip]
    have hfirst := hx.reaches_null hslot (hfree _ l.name_mem)
    have hbefore := hfirst.spares_add (.refl s.world.store)
    have hstore₁ : (s.after [x]).world.store = s.world.store := hfirst.world.store
    obtain ⟨hin, hstore₂⟩ := ih (fun l hl => hcast l (List.mem_cons_of_mem _ hl)) hfirst.find?
      (hfree'.of_eq fun other hother => hbefore.others other fun hmem =>
        hdisjoint _ l.name_mem (List.mem_singleton.mp hmem ▸ hother))
    rw [hstore₁] at hstore₂
    have hlast := hy.reaches_null hin.returned (hbefore.free_after hin.toSpares (hfree _ l.back_mem)
      (fun h => hne (List.mem_singleton.mp h).symm)
      fun h => (List.mem_cons.mp h).elim hne.symm (hdisjoint _ l.back_mem))
    rw [hstore₂] at hlast
    have hspares := hin.toSpares
    rw [hstore₁] at hspares
    have hall := hbefore.append (hspares.append (hlast.spares_add (.refl _)))
    have hstore :
        (s.after ([x] ++ (trip side' l.name rest ++ [y]))).world.store = s.world.store := by
      rw [State.after_append, State.after_append]
      exact hlast.world.store
    refine ⟨⟨hall.mono (.refl _) fun other hother => ?_, ?_, fun z hz => ?_, ?_⟩, hstore⟩
    · simp only [List.flatMap_cons, Layer.names, List.mem_append, List.mem_cons, List.not_mem_nil,
        or_false] at hother ⊢
      tauto
    · rw [hstore, add_zero]
    · rw [hstore]
      rintro ⟨n, hn, -⟩
      exact absurd (Store.lt_size hn) (Nat.not_lt_of_le hz)
    · rw [State.after_append, State.after_append]
      exact hlast.find?

end Nothing

/-! ## Round trips -/

/-- Wherever nobody has given up more references than there are, what a reference is held to can
begin a trip. -/
theorem State.Intact.ready {out : Ledger} {z : Id} (hz : s.Intact out z) (hb : Balanced s out)
    (href : 1 ≤ s.world.store.references z)
    (hrise : s.world.store.CanRise (s.world.store.chain z)) : s.world.store.Ready z :=
  ⟨⟨hz.upheld hb href, fun y hy => (hz y hy).1⟩, hrise⟩

/-- A tower of any height over a handle or a structure gives it back, and so does one over
nothing. -/
theorem round_trips {layers : List Layer} {side : Side} {slot : Slot} {out : Ledger}
    (h : Reachable State.Proceeds s out) (ht : s.world.IsTolerant)
    (hslot : s.slots.find? source = some slot) (hstart : s.Starts layers side slot)
    (hnames : s.slots.Free (layers.flatMap Layer.names)) :
    s.RoundTrip (trip side source layers) (source :: layers.flatMap Layer.names)
      (ending source layers) (slot.returned layers)
      (if slot = .null then 0 else layers.length) := by
  have hb := (h.undisturbed ht.not_isClosed).balanced
  cases hstart with
  | handle hready htyped =>
    rw [if_neg nofun]
    exact (returns_of_typed layers).1 _ htyped hb ht hslot hready hnames
  | struct hrole hready htyped =>
    rw [if_neg nofun]
    exact (returns_of_typed layers).2 htyped hb ht hslot hrole hready hnames
  | null hcast =>
    rw [if_pos rfl]
    exact (roundTrip_null hcast hslot hnames).1

/-- A structure of the far side that lacks some members has got a proxy. -/
def receivedWithout (missing : List String) : List Step :=
  [.create (.sharedFar ⟨7, 9, 1⟩ none missing) "f", .shared (.receive .child (some "f") "p")]

/-- The proxy goes out and comes in again as a child, and both are undone by the parent class. -/
theorem round_trips_derived :
    ((State.initial {} (some .default)).after (receivedWithout [])).RoundTrip
      (trip .near "p" [⟨.child, .client, none, "w", "b"⟩, ⟨.child, .client, some "c", "q", "t"⟩])
      ["p", "w", "b", "c", "q", "t"] "b" (.handle 1 .client) 2 := by
  have hreachable :=
    ((Reachable.initial {} (some .default)).after (receivedWithout []) rfl).proceeds
  have hchain : ((State.initial {} (some .default)).after
      (receivedWithout [])).world.store.chain 1 = [1, 0] := rfl
  have hintact : ((State.initial {} (some .default)).after (receivedWithout [])).Intact
      (0 + (State.initial {} (some .default)).entries (receivedWithout [])) 1 := by
    rw [State.Intact, hchain]
    refine List.forall_mem_cons.mpr ⟨⟨?_, by decide⟩, List.forall_mem_singleton.mpr ⟨?_, by decide⟩⟩
    · exact Store.accountable_of_nodes rfl 1
    · exact Store.accountable_of_nodes rfl 0
  have ht : ((State.initial {} (some .default)).after (receivedWithout [])).world.IsTolerant := by
    rintro ⟨⟩
  have hready := hintact.ready (hreachable.undisturbed ht.not_isClosed).balanced (by decide) <| by
    rw [hchain]
    exact Store.canRise_cons rfl rfl (Store.canRise_cons rfl rfl (Store.canRise_nil _))
  have htyped : Typed (some .child)
      [⟨.child, .client, none, "w", "b"⟩, ⟨.child, .client, some "c", "q", "t"⟩] :=
    ⟨rfl, Or.inr ⟨rfl, rfl⟩, Or.inr ⟨rfl, rfl⟩, trivial, rfl, rfl⟩
  exact round_trips hreachable ht rfl (.handle hready htyped) ⟨by decide, by decide⟩

/-- A tower over a proxy does not leave all as it was if the structure of the proxy has lost a
member that counts references. -/
theorem not_round_trips_unreleased :
    ¬ ∀ s out layers source o view, Reachable State.Proceeds s out → s.world.isShutdown = false →
      s.slots.find? source = some (.handle o view) →
      s.world.store.Upheld (s.world.store.chain o) → s.world.store.CanRise (s.world.store.chain o) →
      Typed (some view) layers → s.slots.Free (layers.flatMap Layer.names) →
      ∀ y < s.world.store.size, (s.after (trip .near source layers)).world.store.references y =
        s.world.store.references y := by
  intro h
  have hreachable :=
    ((Reachable.initial {} (some .default)).after (receivedWithout ["release"]) rfl).proceeds
  have hchain : ((State.initial {} (some .default)).after
      (receivedWithout ["release"])).world.store.chain 1 = [1, 0] := rfl
  have hbefore : ((State.initial {} (some .default)).after
      (receivedWithout ["release"])).world.store.references 0 = 2 := rfl
  have hafter : (((State.initial {} (some .default)).after (receivedWithout ["release"])).after
      (trip .near "p" [⟨.child, .child, none, "w", "q"⟩])).world.store.references 0 = 4 := rfl
  have hkept := h _ _ [⟨.child, .child, none, "w", "q"⟩] "p" 1 .child hreachable rfl rfl ?_ ?_
    ⟨rfl, Or.inl rfl, trivial⟩ ⟨by decide, by decide⟩ 0 (by decide)
  · exact absurd (hafter.symm.trans (hkept.trans hbefore)) (by decide)
  · rw [hchain]
    exact Store.upheld_cons rfl rfl rfl (Store.upheld_cons rfl rfl rfl (Store.upheld_nil _))
  · rw [hchain]
    exact Store.canRise_cons rfl rfl (Store.canRise_cons rfl rfl (Store.canRise_nil _))

end ObjectBoundary.Session
