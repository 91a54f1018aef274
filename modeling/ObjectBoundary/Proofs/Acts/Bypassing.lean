import ObjectBoundary.Proofs.Acts.Calls
import ObjectBoundary.Proofs.Acts.Owned

/-!
# Acts that bypass a role

Whatever is done to shared entities, those of any other role stay as they are, and nothing that
is done on the boundary concerns a device.

* `World.Bypasses`: the entities of a role are as they were.
* `bypasses_retain`, `bypasses_wrap` and their like: counting references and exchanging what is
  counted bypass what is not counted.
* `bypasses_dispose`, `bypasses_give` and their like: disposing of owned entities and exchanging
  them bypass the devices.
* `bypasses_countUp` and its like: using a device bypasses everything else.
-/

namespace ObjectBoundary

open Act

/-! ## The entities of a role -/

/-- An entity, if it is of a certain role. -/
def Store.having (st : Store) (r : Role) (x : Id) : Option Node :=
  (st.get? x).filter fun n => n.entity.role = r

namespace Store

variable {st : Store} {r : Role} {x : Id} {n : Node}

theorem having_eq_some : st.having r x = some n ↔ st.get? x = some n ∧ n.entity.role = r := by
  rw [having, Option.filter_eq_some_iff, decide_eq_true_iff]

theorem having_eq_none (hn : st.get? x = some n) : st.having r x = none ↔ n.entity.role ≠ r := by
  rw [having, hn, Option.filter_some]
  by_cases h : n.entity.role = r <;> simp [h]

end Store

@[simp] theorem Entity.role_withCount (c : Count) (e : Entity) : (e.withCount c).role = e.role := by
  cases e <;> rfl

@[simp] theorem Entity.role_withStruct (s : Structure) (e : Entity) :
    (e.withStruct s).role = e.role := by
  cases e <;> rfl

namespace World

/-- The entities of a role are as they were. -/
structure Bypasses (r : Role) (w w' : World) : Prop where
  having : w'.store.having r = w.store.having r

variable {r : Role} {w w' : World} {x : Id} {n : Node} {f : Node → Node}

instance : IsPreorder World (Bypasses r) where
  refl _ := ⟨rfl⟩
  trans _ _ _ h h' := ⟨h'.having.trans h.having⟩

theorem Bypasses.get? (h : w.Bypasses r w') (hn : w.store.get? x = some n)
    (hr : n.entity.role = r) : w'.store.get? x = some n := by
  have hhaving := Store.having_eq_some.mpr ⟨hn, hr⟩
  rw [← h.having] at hhaving
  exact (Store.having_eq_some.mp hhaving).1

theorem Quiet.bypasses (h : w.Quiet w') : w.Bypasses r w' := ⟨by rw [h.store]⟩

theorem bypasses_log (w : World) (log : List Event) : w.Bypasses r { w with log } := ⟨rfl⟩

/-- A change of what is of another role, if it exists at all. -/
theorem bypasses_modify (h : w.store.having r x = none)
    (hf : ∀ n : Node, n.entity.role ≠ r → (f n).entity.role ≠ r) :
    w.Bypasses r { w with store := w.store.modify x f } := by
  refine ⟨funext fun y => ?_⟩
  show ((w.store.modify x f).get? y).filter _ = (w.store.get? y).filter _
  rw [Store.get?_modify]
  split
  · rename_i hxy
    subst hxy
    cases hn : w.store.get? x with
    | none => rfl
    | some n =>
      have hother := (Store.having_eq_none hn).mp h
      have hnew : (f n).entity.role ≠ r := hf n hother
      rw [Option.map_some, Option.filter_some, Option.filter_some]
      simp [hother, hnew]
  · rfl

theorem bypasses_push (h : n.entity.role ≠ r) :
    w.Bypasses r { w with store := w.store.push n } := by
  refine ⟨funext fun y => ?_⟩
  show ((w.store.push n).get? y).filter _ = (w.store.get? y).filter _
  rw [Store.get?_push]
  split
  · rename_i hy
    rw [hy, Store.get?_size, Option.filter_some]
    simp [h]
  · rfl

end World

variable {w : World} {r : Role} {x : Id} {n : Node}

/-! ## Single changes -/

namespace Act

variable {α : Type}

theorem bypasses_of_quiet {y : Act α} (h : Respects World.Quiet y w) :
    Respects (World.Bypasses r) y w :=
  respects_mono h fun _ hq => hq.bypasses

theorem bypasses_emit (e : Event) : Respects (World.Bypasses r) (emit e) w :=
  respects_modify (World.bypasses_log w _)

theorem bypasses_put {e : Entity} (h : w.store.having r x = none) (he : e.role ≠ r) :
    Respects (World.Bypasses r) (put x e) w :=
  respects_modify (World.bypasses_modify h fun _ _ => he)

/-- The entity is replaced by another one, neither of them of the role. -/
theorem bypasses_replace {e : Entity} (hn : w.store.get? x = some n)
    (h : n.entity.role ≠ r) (he : e.role ≠ r) :
    Respects (World.Bypasses r) (put x e) w :=
  bypasses_put ((Store.having_eq_none hn).mpr h) he

theorem bypasses_retire (h : w.store.having r x = none) :
    Respects (World.Bypasses r) (retire x) w :=
  respects_modify (World.bypasses_modify h fun _ hn => hn)

theorem bypasses_create (name : String) {e : Entity} (he : e.role ≠ r) :
    Respects (World.Bypasses r) (create name e) w :=
  fun _ => World.bypasses_push (n := ⟨name, e, true⟩) he

/-- A new entity of the boundary. -/
theorem bypasses_cross {name : String} {e : Entity} {c : Crossing} {t : Tag} (he : e.role ≠ r) :
    Respects (World.Bypasses r)
      (do
        requireRunning
        let x ← create name e
        emit (.crossed c t)
        pure x)
      w := by
  apply respects_bind (bypasses_of_quiet respects_requireRunning)
  intro _ _ _
  apply respects_bind (bypasses_create name he)
  intro _ _ _
  exact respects_map (bypasses_emit _)

theorem bypasses_raise (h : w.store.having r x = none) :
    Respects (World.Bypasses r) (raise x) w := by
  apply respects_entity_bind
  intro n hn _
  have hother := (Store.having_eq_none hn).mp h
  cases n.entity.count? with
  | none => exact respects_refuse _
  | some c =>
    rw [ofOption_some_bind]
    apply respects_bind (bypasses_put h (by rwa [Entity.role_withCount]))
    intro _ _ _
    apply respects_bind (bypasses_emit _)
    intro _ _ _
    split
    · exact respects_abort
    · exact respects_pure _

theorem bypasses_lower (h : w.store.having r x = none) :
    Respects (World.Bypasses r) (lower x) w := by
  apply respects_entity_bind
  intro n hn _
  have hother := (Store.having_eq_none hn).mp h
  cases n.entity.count? with
  | none => exact respects_refuse _
  | some c =>
    rw [ofOption_some_bind]
    apply respects_bind (bypasses_put h (by rwa [Entity.role_withCount]))
    intro _ _ _
    apply respects_bind (bypasses_emit _)
    intro _ _ _
    exact respects_map (bypasses_of_quiet (respects_require _ _))

end Act

/-! ## What is shared -/

section Shared

variable (ho : r ≠ .sharedObject) (hs : r ≠ .sharedStructure)
include ho hs

namespace Act

theorem bypasses_retainAlong (xs : List Id) :
    Respects (World.Bypasses r) (retainAlong xs) w := by
  induction xs generalizing w with
  | nil => exact respects_refuse _
  | cons x below ih =>
    apply respects_entity_bind
    intro n hn _
    have hother : n.entity.role ≠ r → w.store.having r x = none := (Store.having_eq_none hn).mpr
    -- What lies below is counted first, which does not make the entity one of the role.
    have hrest {w' : World} (h : w.Bypasses r w') (hx : n.entity.role ≠ r) :
        Respects (World.Bypasses r) (raise x) w' :=
      bypasses_raise (by rw [h.having]; exact hother hx)
    obtain ⟨name, e, live⟩ := n
    cases e with
    | sharedObject o => exact bypasses_raise (hother ho.symm)
    | sharedWrapper v => exact respects_bind ih fun _ _ h => hrest h hs.symm
    | sharedProxy p =>
      exact respects_bind (respects_through fun _ _ => ih) fun _ _ h => hrest h ho.symm
    | sharedFar f =>
      apply respects_bind (bypasses_emit _)
      intro _ w₁ h₁
      exact bypasses_put (by rw [h₁.having]; exact hother hs.symm) hs.symm
    | _ => exact respects_refuse _

omit ho hs in
/-- A reference to one entity is given up, and with the last one the entity ceases to exist. -/
theorem bypasses_lower_bind {t : Act Unit} (h : w.store.having r x = none)
    (ht : ∀ w' : World, Respects (World.Bypasses r) t w') :
    Respects (World.Bypasses r)
      (do
        let last ← lower x
        if last then
          retire x
          t
        pure (truth last))
      w := by
  apply respects_bind (bypasses_lower h)
  intro last w₁ h₁
  split
  · apply respects_bind (bypasses_retire (by rw [h₁.having]; exact h))
    intro _ w₂ _
    exact respects_map (ht w₂)
  · exact respects_pure _

theorem bypasses_releaseAlong (xs : List Id) :
    Respects (World.Bypasses r) (releaseAlong xs) w := by
  induction xs generalizing w with
  | nil => exact respects_refuse _
  | cons x below ih =>
    apply respects_entity_bind
    intro n hn _
    have hother : n.entity.role ≠ r → w.store.having r x = none := (Store.having_eq_none hn).mpr
    have hend {w₁ : World} (h₁ : w.Bypasses r w₁) (hx : n.entity.role ≠ r) :
        Respects (World.Bypasses r)
          (do
            let last ← lower x
            if last then
              retire x
              requireRunning
            pure (truth last))
          w₁ :=
      bypasses_lower_bind (by rw [h₁.having]; exact hother hx)
        fun _ => bypasses_of_quiet respects_requireRunning
    obtain ⟨name, e, live⟩ := n
    cases e with
    | sharedObject o => exact bypasses_lower_bind (hother ho.symm) fun _ => bypasses_emit _
    | sharedWrapper v => exact respects_bind (respects_discard ih) fun _ _ h₁ => hend h₁ hs.symm
    | sharedProxy p =>
      exact respects_bind (respects_discard (respects_through fun _ _ => ih))
        fun _ _ h₁ => hend h₁ ho.symm
    | sharedFar f =>
      apply respects_bind (bypasses_emit _)
      intro _ w₁ h₁
      exact respects_bind (bypasses_put (by rw [h₁.having]; exact hother hs.symm) hs.symm)
        fun _ _ _ => respects_pure _
    | _ => exact respects_refuse _

theorem bypasses_retain (x : Id) : Respects (World.Bypasses r) (retain x) w :=
  respects_bind (respects_chain x) fun _ _ _ => bypasses_retainAlong ho hs _

theorem bypasses_release (x : Id) : Respects (World.Bypasses r) (release x) w :=
  respects_bind (respects_chain x) fun _ _ _ => bypasses_releaseAlong ho hs _

theorem bypasses_drop (x : Id) : Respects (World.Bypasses r) (drop x) w :=
  respects_discard (bypasses_release ho hs x)

end Act

namespace SharedClass

theorem bypasses_wrap (c : SharedClass) (name : String) (x : Id) :
    Respects (World.Bypasses r) (c.wrap name x) w := by
  refine respects_ensuring ?_ fun _ _ => bypasses_drop ho hs x
  apply respects_bind (bypasses_of_quiet respects_requireRunning)
  intro _ _ _
  apply respects_bind (bypasses_create name (by exact hs.symm))
  intro y _ _
  apply respects_bind (bypasses_retain ho hs y)
  intro _ _ _
  exact respects_map (bypasses_emit _)

theorem bypasses_retrieve (c : SharedClass) (s : Id) :
    Respects (World.Bypasses r) (c.retrieve s) w := by
  apply respects_entity_bind
  intro n _ _
  cases n.entity with
  | sharedWrapper v =>
    apply respects_bind (bypasses_retain ho hs v.object)
    intro _ _ _
    apply respects_bind (respects_onUnwind (respects_discard (bypasses_release ho hs s))
      fun _ _ => bypasses_drop ho hs v.object)
    intro _ _ _
    exact respects_map (bypasses_emit _)
  | _ => exact respects_refuse _

theorem bypasses_unwrap (c : SharedClass) (s : Id) :
    Respects (World.Bypasses r) (c.unwrap s) w := by
  apply respects_bind (bypasses_of_quiet respects_requireRunning)
  intro _ _ _
  apply respects_bind (bypasses_of_quiet (respects_wrapperTag s))
  intro found _ _
  split
  · exact c.bypasses_retrieve ho hs s
  · cases c.derived? found with
    | some d =>
      exact respects_bind (bypasses_of_quiet respects_requireRunning) fun _ _ _ =>
        d.bypasses_retrieve ho hs s
    | none =>
      exact respects_map (bypasses_of_quiet (respects_check _))

end SharedClass

namespace ProxyClass

theorem bypasses_receive (c : ProxyClass) (name : String) (s : Id) :
    Respects (World.Bypasses r) (c.receive name s) w := by
  apply respects_bind (bypasses_of_quiet respects_requireRunning)
  intro _ _ _
  apply respects_bind (bypasses_create name (by exact ho.symm))
  intro p _ _
  apply respects_bind (bypasses_retain ho hs p)
  intro _ _ _
  apply respects_bind (respects_discard (respects_through fun _ _ => bypasses_release ho hs s))
  intro _ _ _
  exact respects_map (bypasses_emit _)

theorem bypasses_handOut (c : ProxyClass) (x : Id) :
    Respects (World.Bypasses r) (c.handOut x) w := by
  refine respects_ensuring ?_ fun _ _ => bypasses_drop ho hs x
  apply respects_entity_bind
  intro n _ _
  cases n.entity with
  | sharedProxy p =>
    dsimp only
    split
    · apply respects_bind (respects_through fun _ _ => bypasses_retain ho hs p.target)
      intro _ _ _
      exact respects_map (bypasses_emit _)
    · exact respects_refuse _
  | _ => exact respects_refuse _

theorem bypasses_giveBack (c : ProxyClass) (x : Id) :
    Respects (World.Bypasses r) (c.giveBack x) w := by
  have hrunning {w' : World} :
      Respects (World.Bypasses r) (onUnwind requireRunning (drop x)) w' :=
    respects_onUnwind (bypasses_of_quiet respects_requireRunning)
      fun _ _ => bypasses_drop ho hs x
  apply respects_bind hrunning
  intro _ _ _
  apply respects_entity_bind
  intro n _ _
  cases n.entity.reportedTag? with
  | none =>
    refine respects_ensuring ?_ fun _ _ => bypasses_drop ho hs x
    exact respects_map (bypasses_of_quiet (respects_check _))
  | some found =>
    dsimp only
    split
    · exact c.bypasses_handOut ho hs x
    · cases c.sharedDerived? found with
      | some d => exact respects_bind hrunning fun _ _ _ => d.bypasses_handOut ho hs x
      | none =>
        exact respects_bind (bypasses_drop ho hs x) fun _ _ _ =>
          respects_map (bypasses_of_quiet (respects_check _))

theorem bypasses_retainTarget (p : SharedProxy) :
    Respects (World.Bypasses r) (retainTarget p) w :=
  respects_through fun _ _ => bypasses_retain ho hs p.target

theorem bypasses_releaseTarget (p : SharedProxy) :
    Respects (World.Bypasses r) (releaseTarget p) w :=
  respects_bind (respects_through fun _ _ => bypasses_release ho hs p.target)
    fun _ _ _ => respects_pure _

end ProxyClass

namespace Act

omit ho hs in
theorem bypasses_baseMember {α : Type} {t : Tag} {y : Option Id} {a : α} {f : Id → Act α}
    (hf : ∀ (z : Id) (w' : World), Respects (World.Bypasses r) (f z) w') :
    Respects (World.Bypasses r) (baseMember t y a f) w := by
  apply respects_bind (bypasses_of_quiet (respects_require _ _))
  intro _ _ _
  cases y with
  | none => exact respects_pure _
  | some z =>
    apply respects_bind (bypasses_of_quiet (respects_recognises t z))
    intro _ w' _
    split
    · exact hf z w'
    · exact respects_pure _

theorem bypasses_sharedMember (c : SharedClass) (i : Nat) (y : Option Id) :
    Respects (World.Bypasses r) (sharedMember c i y) w := by
  match i with
  | 0 =>
    exact respects_bind (bypasses_baseMember fun z _ => bypasses_retain ho hs z)
      fun _ _ _ => respects_pure _
  | 1 =>
    exact respects_bind (bypasses_baseMember fun z _ => bypasses_release ho hs z)
      fun _ _ _ => respects_pure _
  | 2 => exact bypasses_of_quiet (respects_reply (respects_askMember _ _))
  | 3 => exact bypasses_of_quiet (respects_reply (respects_askMember _ _))
  | index + 4 =>
    dsimp only [sharedMember]
    split
    · exact bypasses_of_quiet (respects_reply (respects_tableMember _ _ _))
    · exact bypasses_of_quiet (respects_reply (respects_interfaceMember _ _ _))

theorem bypasses_sharedFarMember (i : Nat) (x : Id) :
    Respects (World.Bypasses r) (sharedFarMember i x) w := by
  apply respects_entity_bind
  intro n _ _
  cases n.entity with
  | sharedFar f =>
    match i with
    | 0 => exact respects_map (bypasses_retain ho hs x)
    | 1 => exact respects_map (bypasses_release ho hs x)
    | 2 => exact bypasses_of_quiet (respects_reply (respects_ask _ x))
    | 3 => exact bypasses_of_quiet (respects_reply (respects_ask _ x))
    | index + 4 => exact bypasses_of_quiet (respects_reply (respects_farAnswer x _ _))
  | _ => exact respects_refuse _

/-- A call of a member of a shared structure. -/
theorem bypasses_call {s : Id} (hr : w.store.HasRole s .sharedStructure) (i : Nat)
    (y : Option Id) : Respects (World.Bypasses r) (call s i y) w := by
  obtain ⟨m, hm, hrole⟩ := hr
  apply respects_entity_bind
  intro n hn _
  cases hm.symm.trans hn
  refine respects_bind (respects_ofOption _ _) fun t w₁ _ => ?_
  split
  · cases he : m.entity with
    | sharedWrapper v => exact respects_contained (bypasses_sharedMember ho hs v.cls i y)
    | sharedFar f =>
      exact respects_bind (respects_ofOption _ _) fun x _ _ =>
        bypasses_sharedFarMember ho hs i x
    | ownedWrapper v => rw [he] at hrole; cases hrole
    | ownedFar f => rw [he] at hrole; cases hrole
    | _ => exact respects_refuse _
  · exact respects_pure _

end Act

end Shared

/-! ## Devices -/

namespace Act

theorem bypasses_disposeAlong (xs : List Id) :
    Respects (World.Bypasses .device) (disposeAlong xs) w := by
  induction xs generalizing w with
  | nil => exact respects_refuse _
  | cons x below ih =>
    apply respects_entity_bind
    intro n hn _
    have hother : n.entity.role ≠ .device → w.store.having .device x = none :=
      (Store.having_eq_none hn).mpr
    have hrunning {f : Unit → Act Unit} (hx : n.entity.role ≠ .device)
        (hf : ∀ w' : World, Respects (World.Bypasses .device) (f ()) w') :
        Respects (World.Bypasses .device) (retire x >>= fun _ => requireRunning >>= f) w := by
      apply respects_bind (bypasses_retire (hother hx))
      intro _ _ _
      exact respects_bind (bypasses_of_quiet respects_requireRunning) fun _ _ _ => hf _
    obtain ⟨name, e, live⟩ := n
    cases e with
    | ownedObject o =>
      exact respects_bind (bypasses_retire (hother nofun)) fun _ _ _ => bypasses_emit _
    | ownedWrapper v =>
      refine hrunning nofun fun _ => ?_
      split
      · exact ih
      · exact respects_pure _
    | ownedProxy p =>
      refine hrunning nofun fun _ => ?_
      cases p.target with
      | none => exact respects_pure _
      | some s => exact respects_through fun _ _ => ih
    | ownedFar f =>
      apply respects_bind (bypasses_emit _)
      intro _ w₁ h₁
      exact bypasses_put (by rw [h₁.having]; exact hother nofun) (by nofun)
    | _ => exact respects_refuse _

theorem bypasses_dispose (x : Id) : Respects (World.Bypasses .device) (dispose x) w :=
  respects_bind (respects_chain x) fun _ _ _ => bypasses_disposeAlong _

end Act

namespace OwnedClass

theorem bypasses_give (c : OwnedClass) (name : String) (x : Id) :
    Respects (World.Bypasses .device) (c.give name x) w :=
  bypasses_cross nofun

theorem bypasses_lend (c : OwnedClass) (name : String) (x : Id) :
    Respects (World.Bypasses .device) (c.lend name x) w :=
  bypasses_cross nofun

theorem bypasses_retrieve (c : OwnedClass) (s : Id) :
    Respects (World.Bypasses .device) (c.retrieve s) w := by
  apply respects_entity_bind
  intro n hn _
  obtain ⟨name, e, live⟩ := n
  cases e with
  | ownedWrapper v =>
    apply respects_bind (bypasses_of_quiet (respects_require _ _))
    intro _ w₁ h₁
    split
    · have hother : w₁.store.having .device s = none := by
        rw [h₁.having, Store.having_eq_none hn]
        nofun
      apply respects_bind (bypasses_put hother (by nofun))
      intro _ _ _
      apply respects_bind (bypasses_dispose s)
      intro _ _ _
      exact respects_map (bypasses_emit _)
    · exact respects_pure _
  | _ => exact respects_refuse _

theorem bypasses_takeBack (c : OwnedClass) (s : Id) :
    Respects (World.Bypasses .device) (c.takeBack s) w := by
  apply respects_bind (bypasses_of_quiet respects_requireRunning)
  intro _ _ _
  apply respects_bind (bypasses_of_quiet (respects_wrapperTag s))
  intro found _ _
  split
  · exact c.bypasses_retrieve s
  · cases c.derived? found with
    | some d =>
      exact respects_bind (bypasses_of_quiet respects_requireRunning) fun _ _ _ =>
        d.bypasses_retrieve s
    | none =>
      exact respects_map (bypasses_of_quiet (respects_check _))

end OwnedClass

namespace ProxyClass

theorem bypasses_adopt (c : ProxyClass) (name : String) (s : Id) :
    Respects (World.Bypasses .device) (c.adopt name s) w :=
  bypasses_cross nofun

theorem bypasses_extract (c : ProxyClass) (x : Id) :
    Respects (World.Bypasses .device) (c.extract x) w := by
  refine respects_ownedProxy_bind c fun name p live hn => ?_
  apply respects_bind (bypasses_replace hn (by nofun) (by nofun))
  intro _ _ _
  exact respects_ensuring (bypasses_of_quiet (c.respects_handingOut p))
    fun _ _ => bypasses_dispose x

theorem bypasses_surrender (c : ProxyClass) (x : Id) :
    Respects (World.Bypasses .device) (c.surrender x) w := by
  have hrunning {w' : World} :
      Respects (World.Bypasses .device) (onUnwind requireRunning (dispose x)) w' :=
    respects_onUnwind (bypasses_of_quiet respects_requireRunning) fun _ _ => bypasses_dispose x
  apply respects_bind hrunning
  intro _ _ _
  apply respects_entity_bind
  intro n _ _
  cases n.entity.reportedTag? with
  | none =>
    refine respects_ensuring ?_ fun _ _ => bypasses_dispose x
    exact respects_map (bypasses_of_quiet (respects_check _))
  | some found =>
    dsimp only
    split
    · exact c.bypasses_extract x
    · cases c.ownedDerived? found with
      | some d => exact respects_bind hrunning fun _ _ _ => d.bypasses_extract x
      | none =>
        exact respects_bind (bypasses_dispose x) fun _ _ _ =>
          respects_map (bypasses_of_quiet (respects_check _))

theorem bypasses_takeTarget (x : Id) :
    Respects (World.Bypasses .device) (takeTarget x) w := by
  apply respects_entity_bind
  intro n hn _
  obtain ⟨name, e, live⟩ := n
  cases e with
  | ownedProxy p =>
    exact respects_map (bypasses_replace hn (by nofun) (by nofun))
  | _ => exact respects_refuse _

end ProxyClass

namespace Act

theorem bypasses_ownedMember (c : OwnedClass) (i : Nat) (y : Option Id) :
    Respects (World.Bypasses .device) (ownedMember c i y) w := by
  match i with
  | 0 =>
    exact respects_bind (bypasses_baseMember fun z _ => bypasses_dispose z)
      fun _ _ _ => respects_pure _
  | index + 1 => exact bypasses_of_quiet (respects_reply (respects_interfaceMember _ _ _))

theorem bypasses_ownedFarMember (i : Nat) (x : Id) :
    Respects (World.Bypasses .device) (ownedFarMember i x) w := by
  apply respects_entity_bind
  intro n _ _
  cases n.entity with
  | ownedFar f =>
    match i with
    | 0 => exact respects_map (bypasses_dispose x)
    | index + 1 => exact bypasses_of_quiet (respects_reply (respects_farAnswer x _ _))
  | _ => exact respects_refuse _

/-- A call of a member of any structure. -/
theorem bypasses_devices_call (s : Id) (i : Nat) (y : Option Id) :
    Respects (World.Bypasses .device) (call s i y) w := by
  apply respects_entity_bind
  intro n _ _
  refine respects_bind (respects_ofOption _ _) fun t _ _ => ?_
  split
  · cases n.entity with
    | sharedWrapper v =>
      exact respects_contained (bypasses_sharedMember (by nofun) (by nofun) v.cls i y)
    | sharedFar f =>
      exact respects_bind (respects_ofOption _ _) fun x _ _ =>
        bypasses_sharedFarMember (by nofun) (by nofun) i x
    | ownedWrapper v => exact respects_contained (bypasses_ownedMember v.cls i y)
    | ownedFar f =>
      exact respects_bind (respects_ofOption _ _) fun x _ _ => bypasses_ownedFarMember i x
    | _ => exact respects_refuse _
  · exact respects_pure _

/-! ## The acts on a device -/

theorem respects_counter (x : Id) : Respects World.Quiet (counter x) w := by
  apply respects_entity_bind
  intro n _ _
  cases n.entity with
  | counter c => exact respects_pure _
  | _ => exact respects_refuse _

/-- A counter that is at hand is no entity of another role. -/
theorem bypasses_counter_bind {α : Type} {f : Act α} (hr : r ≠ .device)
    (hf : w.store.having r x = none → Respects (World.Bypasses r) f w) :
    Respects (World.Bypasses r) (discard (counter x) >>= fun _ => f) w := by
  show Respects _ ((counter x >>= fun _ => pure PUnit.unit) >>= fun _ => f) w
  unfold counter
  rw [bind_assoc, bind_assoc]
  apply respects_entity_bind
  intro n hn _
  obtain ⟨name, e, live⟩ := n
  cases e with
  | counter c => exact hf ((Store.having_eq_none hn).mpr hr.symm)
  | _ => exact respects_refuse _

theorem bypasses_countUp (hr : r ≠ .device) : Respects (World.Bypasses r) (countUp x) w :=
  bypasses_counter_bind hr bypasses_raise

theorem bypasses_countDown (hr : r ≠ .device) : Respects (World.Bypasses r) (countDown x) w :=
  bypasses_counter_bind hr bypasses_lower

theorem bypasses_checkerSignal (hr : r ≠ .device) :
    Respects (World.Bypasses r) (checkerSignal x) w := by
  unfold checkerSignal checker
  rw [bind_assoc]
  apply respects_entity_bind
  intro n hn _
  obtain ⟨name, e, live⟩ := n
  cases e with
  | checker b =>
    have hput : Respects (World.Bypasses r) (put x (.checker true)) w :=
      bypasses_replace hn hr.symm hr.symm
    show Respects _ (put x (.checker true) >>= fun _ => require (!b) .shutdownTwice) w
    exact respects_bind hput fun _ _ _ => bypasses_of_quiet (respects_require _ _)
  | _ => exact respects_refuse _

end Act

end ObjectBoundary
