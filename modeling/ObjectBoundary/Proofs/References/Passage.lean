import ObjectBoundary.Act.References
import ObjectBoundary.Proofs.References.Reach

/-!
# References along a chain

An act that takes a reference to the first entity of a chain is done only if all counts in reach
could rise, and then each of them has risen by one. An act that gives one up lowers each of them
by one, and destroys what has no reference left. Only the check of the start of shutdown can make
it unwind.

* `World.Retained`, `World.Released`: what has happened to the entities in reach.
* `World.CutShort`: what has happened if the check has failed on the way.
* `ends_retainAlong`, `ends_releaseAlong`: that it has happened once the acts are over.
-/

namespace ObjectBoundary

open Act

variable {w : World} {x : Id} {n : Node} {c : Count}

/-! ## The count of one entity -/

/-- The world after an entity has changed and an event was logged. -/
def World.after (w : World) (x : Id) (f : Node → Node) (e : Event) : World :=
  { w with store := w.store.modify x f, log := w.log ++ [e] }

namespace Act

/-- A reference that is taken within the limit raises the count. -/
theorem raise_apply (hn : w.store.get? x = some n) (hlive : n.live = true)
    (hc : n.entity.sharedCount? = some c) (hfull : c.isFull = false) (phase : Phase) :
    raise x phase w = (.done (), w.after x Node.raised (.raised x)) := by
  have hmod : (w.store.modify x fun n' => { n' with entity := n.entity.withCount c.succ }) =
      w.store.modify x Node.raised := Store.modify_congr fun m hm => by
    cases hn.symm.trans hm
    exact congrArg (Node.mk n.name · n.live) (Entity.raised_eq_withCount hc).symm
  simp only [raise, bind_apply, entity_apply hn hlive, Entity.count?_of_sharedCount? hc, ofOption,
    pure_apply, put, emit, modify, hfull]
  rw [World.after, ← hmod]
  rfl

/-- Beyond the limit the process has ended. -/
theorem ends_raise {P : Unit → World → Prop} {U : Failure → World → Prop}
    (hn : w.store.get? x = some n) (hlive : n.live = true) (hc : n.entity.sharedCount? = some c)
    (hP : c.isFull = false → P () (w.after x Node.raised (.raised x))) :
    Ends (raise x) w P U := by
  intro phase
  cases hfull : c.isFull with
  | false =>
    rw [raise_apply hn hlive hc hfull]
    exact hP hfull
  | true =>
    simp only [raise, bind_apply, entity_apply hn hlive, Entity.count?_of_sharedCount? hc,
      ofOption, pure_apply, put, emit, modify, hfull, if_true]
    exact trivial

/-- Giving up one of the references of an entity lowers the count. -/
theorem lower_apply (hn : w.store.get? x = some n) (hlive : n.live = true)
    (hc : n.entity.sharedCount? = some c) (hpos : 0 < c.toNat) (phase : Phase) :
    lower x phase w = (.done c.isOne,
      w.after x (fun n => { n with entity := n.entity.lowered }) (.lowered x)) := by
  have hmod : (w.store.modify x fun n' => { n' with entity := n.entity.withCount c.pred }) =
      w.store.modify x fun n => { n with entity := n.entity.lowered } :=
    Store.modify_congr fun m hm => by
      cases hn.symm.trans hm
      exact congrArg (Node.mk n.name · n.live) (Entity.lowered_eq_withCount hc).symm
  have hzero : (!c.isZero) = true := by
    rw [Bool.not_eq_true', Bool.eq_false_iff]
    intro h
    have := (Count.isZero_iff c).mp h
    omega
  simp only [lower, bind_apply, entity_apply hn hlive, Entity.count?_of_sharedCount? hc, ofOption,
    pure_apply, put, emit, modify, hzero, require_true]
  rw [World.after, ← hmod]

/-- An entity of this side gives up a reference, and what follows if it was the last one. -/
theorem ends_lower_bind {t : Act Unit} {Q : World → Prop} {U : Failure → World → Prop}
    (hn : w.store.get? x = some n) (hlive : n.live = true) (hc : n.entity.sharedCount? = some c)
    (hpos : 0 < c.toNat)
    (hlast : n.entity.isLast = true →
      Ends t (w.after x Node.lowered (.lowered x)) (fun _ w' => Q w') U)
    (hmore : n.entity.isLast = false → Q (w.after x Node.lowered (.lowered x))) :
    Ends
      (do
        let last ← lower x
        if last then
          retire x
          t
        pure (truth last))
      w (fun a w' => a = truth n.entity.isLast ∧ Q w') U := by
  have hone : n.entity.isLast = c.isOne := by rw [Entity.isLast, hc]; rfl
  refine ends_bind (P := fun last w' => last = c.isOne ∧
      w' = w.after x (fun n => { n with entity := n.entity.lowered }) (.lowered x))
    (fun phase => by rw [lower_apply hn hlive hc hpos]; exact ⟨rfl, rfl⟩) ?_
  intro _ _ hpost
  obtain ⟨rfl, rfl⟩ := hpost
  split
  · rename_i h
    rw [h] at hone
    apply ends_modify_bind
    have : (w.store.modify x fun n => { n with entity := n.entity.lowered }).modify x
        (fun n => { n with live := false }) = w.store.modify x Node.lowered := by
      rw [Store.modify_modify]
      apply Store.modify_congr
      intro m hm
      cases hn.symm.trans hm
      simp [Node.lowered, hone]
    rw [World.after, this]
    exact ends_bind (hlast hone) fun _ _ hq => ends_pure ⟨by rw [h, hone], hq⟩
  · rename_i h
    rw [Bool.not_eq_true] at h
    rw [h] at hone
    refine ends_pure ⟨by rw [h, hone], ?_⟩
    have : (w.store.modify x fun n => { n with entity := n.entity.lowered }) =
        w.store.modify x Node.lowered := Store.modify_congr fun m hm => by
      cases hn.symm.trans hm
      simp [Node.lowered, hone]
    rw [World.after, this]
    exact hmore hone

end Act

/-! ## Adjusted counts -/

namespace World

variable {w₀ : World} {f : Node → Node} {d : Int} {ys : List Id} {e : Event}

/-- One more count is adjusted, which an event tells. -/
theorem Adjusted.after (h : w₀.Adjusted w f d ys) (hx : x ∉ ys) (hn : w.store.get? x = some n)
    (he : ∀ z, e.change? z = if x = z then some d else none) (hd : ∀ z, e ≠ .dropped z)
    (hf : e.isFailure = false) (hs : (f n).standing = n.standing) :
    w₀.Adjusted (w.after x f e) f d (x :: ys) := by
  refine h.cons hx hn rfl rfl rfl (fun z => ?_) (fun z => ?_) ?_
  · by_cases hz : z = x
    · simp [World.changes, World.after, he, hz]
    · simp [World.changes, World.after, he, hz, Ne.symm hz]
  · have : (w.after x f e).drops z = w.drops z := by
      simp [World.drops, World.after, hd z]
    rw [this, hs]
  · simp [World.failures, World.after, hf]

/-- An object that loses its last reference is destroyed, which is logged. -/
theorem Adjusted.dropped {o : SharedObject} {name : String}
    (h : w₀.Adjusted w Node.lowered (-1) ys) (hx : x ∉ ys)
    (hn : w.store.get? x = some ⟨name, .sharedObject o, true⟩) (hone : o.count.isOne = true) :
    let w' := w.after x Node.lowered (.lowered x)
    w₀.Adjusted { w' with log := w'.log ++ [.dropped x] } Node.lowered (-1) (x :: ys) := by
  refine h.cons hx hn rfl rfl rfl (fun z => ?_) (fun z => ?_) ?_
  · by_cases hz : z = x
    · simp [World.changes, World.after, Event.change?, hz]
    · simp [World.changes, World.after, Event.change?, hz, Ne.symm hz]
  · have hlast : (Entity.sharedObject o).isLast = true := hone
    by_cases hz : z = x
    · simp [World.drops, World.after, hz, Node.standing, Node.lowered, Entity.lowered, hlast]
    · simp [World.drops, World.after, hz, Ne.symm hz]
  · simp [World.failures, World.after, Event.isFailure]

end World

/-! ## Along a chain -/

namespace Store

/-- Entities that exist and are reference counted. -/
def Upheld (st : Store) (ys : List Id) : Prop :=
  ∀ y ∈ ys, ∃ n, st.get? y = some n ∧ n.live = true ∧ n.entity.isShared = true

/-- Entities to which a reference may be taken. -/
def CanRise (st : Store) (ys : List Id) : Prop :=
  ∀ y ∈ ys, ∀ n, st.get? y = some n → n.entity.canRise = true

theorem upheld_nil (st : Store) : st.Upheld [] := fun _ h => nomatch h

theorem canRise_nil (st : Store) : st.CanRise [] := fun _ h => nomatch h

theorem upheld_cons {st : Store} {ys : List Id} (hn : st.get? x = some n) (hlive : n.live = true)
    (hs : n.entity.isShared = true) (h : st.Upheld ys) : st.Upheld (x :: ys) := by
  intro y hy
  rcases List.mem_cons.mp hy with rfl | hy
  · exact ⟨n, hn, hlive, hs⟩
  · exact h y hy

theorem canRise_cons {st : Store} {ys : List Id} (hn : st.get? x = some n)
    (hr : n.entity.canRise = true) (h : st.CanRise ys) : st.CanRise (x :: ys) := by
  intro y hy m hm
  rcases List.mem_cons.mp hy with rfl | hy
  · cases hn.symm.trans hm
    exact hr
  · exact h y hy m hm

end Store

/-- What taking a reference does to the entities that it reaches. -/
structure World.Retained (w w' : World) (ys : List Id) : Prop where
  adjusted : w.Adjusted w' Node.raised 1 ys
  upheld : w.store.Upheld ys
  canRise : w.store.CanRise ys

/-- What giving a reference up does to the entities that it reaches. -/
structure World.Released (w w' : World) (ys : List Id) : Prop where
  adjusted : w.Adjusted w' Node.lowered (-1) ys
  upheld : w.store.Upheld ys

/-- Giving up a reference to the first entity of a chain was cut short: a wrapper or proxy has given
up its last reference, and the wrappers above it none. -/
def World.CutShort (w w' : World) : List Id → Prop
  | [] => False
  | x :: below => ∃ n, w.store.get? x = some n ∧ n.live = true ∧
    (n.entity.backing?.isSome = true ∧ n.entity.isLast = true ∧
        w.Released w' (w.store.reach Layout.release (x :: below)) ∨
      (∃ v, n.entity = .sharedWrapper v) ∧ w.CutShort w' below)

theorem World.Retained.nil (w : World) : w.Retained w [] :=
  ⟨.nil _ _ _, Store.upheld_nil _, Store.canRise_nil _⟩

theorem World.Released.nil (w : World) : w.Released w [] := ⟨.nil _ _ _, Store.upheld_nil _⟩

namespace Act

variable {U : Failure → World → Prop}

/-- A proxy hands a reference on through its structure. Whether the member is set decides how far
the reference reaches. -/
theorem ends_pass {α : Type} {position : Nat} {absent : α} {act : Act α} {below : List Id}
    {name : String} {p : SharedProxy} {live : Bool} {R : World → List Id → Prop}
    {V : Failure → World → Prop} (hn : w.store.get? x = some ⟨name, .sharedProxy p, live⟩)
    (hx : x ∉ w.store.reach position below)
    (hact : Ends act w (fun _ w₁ => R w₁ (w.store.reach position below)) V) (hnil : R w []) :
    Ends (through p.target position absent act) w
      (fun _ w₁ => ∃ ys, w.store.reach position (x :: below) = x :: ys ∧ x ∉ ys ∧ R w₁ ys) U := by
  refine ends_through (V := V) ?_ ?_
  · intro m t hm _ ht hset
    have hpass : w.store.passes position (.sharedProxy p) = true :=
      (Store.isSet_eq hm ht position).trans hset
    refine ends_mono hact (fun _ w₁ h₁ => ?_) fun _ _ hu => hu
    exact ⟨_, Store.reach_cons_of_passes hn hpass below, hx, h₁⟩
  · intro m t hm _ ht hset
    have hpass : w.store.passes position (.sharedProxy p) = false :=
      (Store.isSet_eq hm ht position).trans hset
    exact ⟨[], Store.reach_cons_of_not_passes hn hpass below, List.not_mem_nil, hnil⟩

/-- An entity of this side takes a reference after those below it. -/
theorem ends_raise_after {w₀ : World} {ys : List Id} (h : w₀.Retained w ys) (hx : x ∉ ys)
    (hn : w₀.store.get? x = some n) (hlive : n.live = true) (hc : n.entity.sharedCount? = some c) :
    Ends (raise x) w (fun _ w' => w₀.Retained w' (x :: ys)) U := by
  have hn' := (h.adjusted.get?_of_not_mem hx).trans hn
  apply ends_raise hn' hlive hc
  intro hfull
  have hs : n.entity.isShared = true := by
    obtain ⟨name, e, live⟩ := n
    cases e <;> first | rfl | cases hc
  have hr : n.entity.canRise = true := by
    rw [Entity.canRise, hc]
    simp [hfull]
  refine ⟨?_, Store.upheld_cons hn hlive hs h.upheld, Store.canRise_cons hn hr h.canRise⟩
  apply h.adjusted.after hx hn' (fun z => rfl) (fun z => by simp) rfl
  obtain ⟨name, e, live⟩ := n
  cases e <;> rfl

theorem ends_retainAlong {xs : List Id} (h : xs.Nodup) (w : World) :
    Ends (retainAlong xs) w (fun _ w' => w.Retained w' (w.store.reach Layout.addRef xs)) U := by
  induction xs generalizing U with
  | nil => exact ends_refuse
  | cons x below ih =>
    obtain ⟨hx, hbelow⟩ := List.nodup_cons.mp h
    have hreach : x ∉ w.store.reach Layout.addRef below := fun hmem =>
      hx (Store.reach_subset _ _ _ _ hmem)
    apply ends_entity_bind
    intro n hn hlive
    obtain ⟨name, e, live⟩ := n
    cases e with
    | sharedObject o =>
      rw [Store.reach_cons_of_not_passes hn rfl]
      exact ends_raise_after (.nil w) List.not_mem_nil hn hlive rfl
    | sharedWrapper _ =>
      rw [Store.reach_cons_of_passes hn rfl]
      exact ends_bind (ih hbelow) fun _ w₁ h₁ => ends_raise_after h₁ hreach hn hlive rfl
    | sharedProxy p =>
      apply ends_bind (ends_pass hn hreach (ih (U := U) hbelow) (.nil w))
      intro _ w₁ hpost
      obtain ⟨ys, hys, hxys, h₁⟩ := hpost
      rw [hys]
      exact ends_raise_after h₁ hxys hn hlive rfl
    | sharedFar f =>
      rw [Store.reach_cons_of_not_passes hn rfl]
      refine ends_modify_bind (ends_modify ?_)
      let e : Entity := .sharedFar { f with references := f.references + 1 }
      have hmod : (w.store.modify x fun n => { n with entity := e }) =
          w.store.modify x Node.raised :=
        Store.modify_congr fun m hm => by cases hn.symm.trans hm; rfl
      refine ⟨?_, Store.upheld_cons hn hlive rfl (Store.upheld_nil _),
        Store.canRise_cons hn rfl (Store.canRise_nil _)⟩
      have hnil := World.Adjusted.nil w Node.raised 1
      have key := hnil.after (e := .called x "add_ref") List.not_mem_nil hn
        (fun z => by simp [Event.change?]) (fun z => by simp) rfl rfl
      rw [World.after, ← hmod] at key
      exact key
    | _ => exact ends_refuse

/-- A wrapper or proxy gives a reference up after those below it. -/
theorem ends_lower_after {w₀ : World} {ys : List Id} (hs : w₀.store.Sound) (h : w₀.Released w ys)
    (hx : x ∉ ys) (hn : w₀.store.get? x = some n) (hlive : n.live = true)
    (hb : n.entity.backing?.isSome = true) :
    Ends
      (do
        let last ← lower x
        if last then
          retire x
          requireRunning
        pure (truth last))
      w (fun a w' => a = truth n.entity.isLast ∧ w₀.Released w' (x :: ys))
      fun e w' => World.Disturbed e w' ∧ n.entity.isLast = true ∧ w₀.Released w' (x :: ys) := by
  have hn' := (h.adjusted.get?_of_not_mem hx).trans hn
  have hcount := hs.counted x n hn
  obtain ⟨name, e, live⟩ := n
  obtain ⟨c, hc, hfits, hshared, hstand⟩ : ∃ c, e.sharedCount? = some c ∧ c.Fits live ∧
      e.isShared = true ∧
      (Node.lowered ⟨name, e, live⟩).standing = Node.standing ⟨name, e, live⟩ := by
    cases e with
    | sharedWrapper v => exact ⟨_, rfl, hcount, rfl, rfl⟩
    | sharedProxy p => exact ⟨_, rfl, hcount, rfl, rfl⟩
    | _ => cases hb
  have hadj : w₀.Released (w.after x Node.lowered (.lowered x)) (x :: ys) :=
    ⟨h.adjusted.after hx hn' (fun z => rfl) (fun z => by simp) rfl hstand,
      Store.upheld_cons hn hlive hshared h.upheld⟩
  refine ends_lower_bind hn' hlive hc (hfits.live_iff.mp hlive) (fun hlast => ?_) fun _ => hadj
  refine ends_mono ends_requireRunning ?_ ?_
  · intro _ w' hpost
    obtain ⟨hq, hfail⟩ := hpost
    exact ⟨hadj.adjusted.quiet hq hfail, hadj.upheld⟩
  · intro e w' hpost
    obtain ⟨hd, hq⟩ := hpost
    refine ⟨hd, hlast, hadj.adjusted.quiet hq fun ho => ?_, hadj.upheld⟩
    exact absurd hd.2 (hq.isOpen ho).not_isBarred

theorem ends_releaseAlong {xs : List Id} (h : xs.Nodup) {w : World} (hs : w.store.Sound) :
    Ends (releaseAlong xs) w
      (fun a w' => w.Released w' (w.store.reach Layout.release xs) ∧
        ∀ x ∈ xs.head?, ∀ n, w.store.get? x = some n → a = n.entity.releaseAnswer)
      fun e w' => World.Disturbed e w' ∧ w.CutShort w' xs := by
  induction xs with
  | nil => exact ends_refuse
  | cons x below ih =>
    obtain ⟨hx, hbelow⟩ := List.nodup_cons.mp h
    have hreach : x ∉ w.store.reach Layout.release below := fun hmem =>
      hx (Store.reach_subset _ _ _ _ hmem)
    refine ends_entity_bind fun n hn hlive => ?_
    have hcount := hs.counted x n hn
    -- The answer is that of the first entity, whatever those below it have answered.
    refine ends_mono (P := fun a w' => a = n.entity.releaseAnswer ∧
      w.Released w' (w.store.reach Layout.release (x :: below))) ?_ ?_ fun _ _ hu => hu
    · obtain ⟨name, e, live⟩ := n
      change live = true at hlive
      subst hlive
      cases e with
      | sharedObject o =>
        have hnil := World.Adjusted.nil w Node.lowered (-1)
        have hup := Store.upheld_cons hn rfl rfl (Store.upheld_nil _)
        rw [Store.reach_cons_of_not_passes hn rfl]
        refine ends_lower_bind hn rfl rfl (hcount.live_iff.mp rfl) (fun hlast => ?_) fun hmore => ?_
        · exact ends_modify ⟨hnil.dropped List.not_mem_nil hn hlast, hup⟩
        · refine ⟨hnil.after List.not_mem_nil hn (fun z => rfl) (fun z => by simp) rfl ?_, hup⟩
          simp [Node.standing, Node.lowered, Entity.lowered, hmore]
      | sharedWrapper _ =>
        have hall : w.store.reach Layout.release (x :: below) =
            x :: w.store.reach Layout.release below := Store.reach_cons_of_passes hn rfl below
        rw [hall]
        refine ends_bind (P := fun _ w₁ => w.Released w₁ (w.store.reach Layout.release below)) ?_ ?_
        · refine ends_bind (ends_mono (ih hbelow) (fun _ _ h₁ => h₁) fun e w₁ hu => ?_)
            fun _ w₁ h₁ => ends_pure h₁.1
          exact ⟨hu.1, _, hn, rfl, Or.inr ⟨⟨_, rfl⟩, hu.2⟩⟩
        · intro _ w₁ h₁
          refine ends_mono (ends_lower_after hs h₁ hreach hn rfl rfl) (fun _ _ h => h)
            fun e w₂ hu => ?_
          exact ⟨hu.1, _, hn, rfl, Or.inl ⟨rfl, hu.2.1, hall ▸ hu.2.2⟩⟩
      | sharedProxy p =>
        have hpass := ends_mono (ih hbelow) (fun _ _ h₁ => h₁.1) fun _ _ hu => hu
        refine ends_bind (P := fun _ w₁ => ∃ ys,
          w.store.reach Layout.release (x :: below) = x :: ys ∧ x ∉ ys ∧ w.Released w₁ ys) ?_ ?_
        · exact ends_bind (ends_pass hn hreach hpass (.nil w)) fun _ _ h₁ => ends_pure h₁
        · intro _ w₁ hpost
          obtain ⟨ys, hys, hxys, h₁⟩ := hpost
          rw [hys]
          refine ends_mono (ends_lower_after hs h₁ hxys hn rfl rfl) (fun _ _ h => h)
            fun e w₂ hu => ?_
          exact ⟨hu.1, _, hn, rfl, Or.inl ⟨rfl, hu.2.1, hys ▸ hu.2.2⟩⟩
      | sharedFar f =>
        rw [Store.reach_cons_of_not_passes hn rfl]
        apply ends_modify_bind
        let e : Entity := (Entity.sharedFar f).lowered
        have hmod : (w.store.modify x fun n => { n with entity := e }) =
            w.store.modify x Node.lowered :=
          Store.modify_congr fun m hm => by cases hn.symm.trans hm; rfl
        have hnil := World.Adjusted.nil w Node.lowered (-1)
        have key := hnil.after (e := .called x "release") List.not_mem_nil hn
          (fun z => by simp [Event.change?]) (fun z => by simp) rfl rfl
        rw [World.after, ← hmod] at key
        refine ends_modify_bind (ends_pure ⟨rfl, key, ?_⟩)
        exact Store.upheld_cons hn rfl rfl (Store.upheld_nil _)
      | _ => exact ends_refuse
    · intro a w' hpost
      obtain ⟨rfl, h'⟩ := hpost
      refine ⟨h', ?_⟩
      intro y hy m hm
      cases hy
      cases hn.symm.trans hm
      rfl

/-! ## Acts that are done -/

theorem does_raise (hn : w.store.get? x = some n) (hlive : n.live = true)
    (hc : n.entity.sharedCount? = some c) (hfull : c.isFull = false) : Does (raise x) w :=
  fun phase => ⟨_, _, raise_apply hn hlive hc hfull phase⟩

theorem does_lower_bind {t : Act Unit} (hn : w.store.get? x = some n) (hlive : n.live = true)
    (hc : n.entity.sharedCount? = some c) (hpos : 0 < c.toNat) (ht : ∀ w', w'.isShutdown =
      w.isShutdown → w'.inForce = w.inForce → Does t w') :
    Does
      (do
        let last ← lower x
        if last then
          retire x
          t
        pure (truth last))
      w := by
  refine does_bind (P := fun _ w' => w'.isShutdown = w.isShutdown ∧ w'.inForce = w.inForce)
    (U := fun _ _ => True) (fun phase => ⟨_, _, lower_apply hn hlive hc hpos phase⟩)
    (fun phase => by rw [lower_apply hn hlive hc hpos]; exact ⟨rfl, rfl⟩) ?_
  intro last w₁ hpost
  obtain ⟨hd, hf⟩ := hpost
  split
  · apply does_modify_bind
    exact does_bind (ht _ hd hf) ends_true fun _ _ _ => does_pure _ _
  · exact does_pure _ _

end Act

end ObjectBoundary
