import ObjectBoundary.Proofs.Acts.Retreat
import ObjectBoundary.Proofs.Ownership.Owned

/-!
# Hand-overs that unwind

An operation that takes a handle or an owned object by value has it to give up when it unwinds. It
is given up once: a handle lowers each count that it reaches by one, and an owned object is
destroyed with all that it owns.

* `Store.Destroys`: an owned object was destroyed with what it owned.
* `Store.GivesUp`: what was taken by value has been given up, once.
* `GivesUp.count`: the count of the object of a handle.
* `ends_surrender_destroys`: a proxy that is surrendered is destroyed where that unwinds.
* `destroys_of_surrender`, `quiet_of_give`: what the check of the start of shutdown lets happen.
-/

namespace ObjectBoundary

open Act

variable {w w₁ w' : World} {x : Id} {n : Node}

/-! ## What is given up -/

namespace Store

variable {st st' : Store}

/-- An owned object has gone, and so has what it owned, through the function `del` of a structure
that it held. Nothing else has changed. -/
structure Destroys (st st' : Store) (x : Id) : Prop where
  lived : ∀ y ∈ st.doomed (st.chain x), st.IsLive y
  gone : ¬ st'.IsLive x
  others : ∀ y, y ≠ x →
    st'.get? y = (st.modifyAll (st.doomed (st.chain x)) Node.disposed).get? y

/-- What was taken by value has been given up, once. -/
inductive GivesUp (st st' : Store) (x : Id) : Prop
  /-- Of a handle, each count that it reaches is one less, and what has no reference left has
  gone. -/
  | handle : st.HasRole x .sharedObject → st.Upheld (st.reach Layout.release (st.chain x)) →
    st' = st.modifyAll (st.reach Layout.release (st.chain x)) Node.lowered → GivesUp st st' x
  | owner : st.HasRole x .ownedObject → st.Destroys st' x → GivesUp st st' x

/-- The object of a handle has one reference less, and has gone if that was the last one. -/
theorem GivesUp.count (h : st.GivesUp st' x) (hs : st.Sound) (hr : st.HasRole x .sharedObject) :
    ∃ n n', st.get? x = some n ∧ n.live = true ∧ st'.get? x = some n' ∧
      n'.entity.references = n.entity.references - 1 ∧
      (n'.live = true ↔ 0 < n'.entity.references) := by
  obtain ⟨n, hn, hrole⟩ := hr
  cases h with
  | handle _ hup heq =>
    have hx : x ∈ st.reach Layout.release (st.chain x) := List.mem_cons_self
    obtain ⟨m, hm, hlive, hshared⟩ := hup x hx
    cases hn.symm.trans hm
    have hcounted := hs.counted x n hn
    have hafter := Node.counted_lowered hcounted hlive
    refine ⟨n, n.lowered, hn, hlive, ?_, Node.references_lowered hcounted hlive hshared, ?_⟩
    · rw [heq, get?_modifyAll (reach_nodup (chain_nodup hs.earlier x) _ _), if_pos hx, hn]
      rfl
    · obtain ⟨name, e, live⟩ := n
      cases e with
      | sharedObject o => exact hafter.live_iff.trans Int.natCast_pos.symm
      | sharedProxy p => exact hafter.live_iff.trans Int.natCast_pos.symm
      | _ => cases hrole
  | owner hr' _ =>
    obtain ⟨m, hm, hrole'⟩ := hr'
    cases hn.symm.trans hm
    cases hrole.symm.trans hrole'

end Store

/-- A handle that was given up between two looks. -/
theorem World.GivesUp.store (h : w.GivesUp w' x) (hr : w.store.HasRole x .sharedObject) :
    w.store.GivesUp w'.store x := by
  obtain ⟨w₁, w₂, h₁, h₂, h'⟩ := h
  have hup := h₂.upheld
  have hstore := h₂.adjusted.store
  rw [World.below, h₁.store] at hup hstore
  exact .handle hr hup (h'.store.trans hstore)

/-! ## Owned objects that are given up -/

/-- What has a single owner goes with it. -/
theorem Node.disposed_live (h : n.entity.role = .ownedObject) : n.disposed.live = false := by
  obtain ⟨name, e, live⟩ := n
  cases e <;> first | rfl | cases h

theorem World.Disposed.destroys (h : w.Disposed w' (w.store.doomed (w.store.chain x)))
    (hl : w.store.Linked) (hr : w.store.HasRole x .ownedObject) :
    w.store.Destroys w'.store x := by
  refine ⟨h.live, ?_, fun y _ => by rw [h.store]⟩
  obtain ⟨n, hn, hrole⟩ := hr
  have hx : x ∈ w.store.doomed (w.store.chain x) := List.mem_cons_self
  rintro ⟨m, hm, hlive⟩
  rw [h.store, Store.get?_modifyAll (Store.doomed_chain_nodup hl x), if_pos hx, hn] at hm
  cases hm
  exact absurd (hlive.symm.trans (Node.disposed_live hrole)) Bool.noConfusion

/-- A proxy that has lost a structure that could not be deleted is destroyed alone. -/
theorem Act.ends_dispose_emptied {p : OwnedProxy} {name : String}
    (hn : w.store.get? x = some ⟨name, .ownedProxy p, true⟩)
    (hlead : w.store.leadsOn (.ownedProxy p) = false)
    (h₁ : w₁.store = w.store.modify x fun n =>
      { n with entity := .ownedProxy { p with target := none } }) :
    Ends (dispose x) w₁ (fun _ w' => w.store.Destroys w'.store x) World.Disturbed := by
  have hn₁ : w₁.store.get? x = some ⟨name, .ownedProxy { p with target := none }, true⟩ := by
    rw [h₁, Store.get?_modify, if_pos rfl, hn]
    rfl
  refine ends_mono (ends_dispose x w₁) (fun _ w' h => ?_) fun _ _ h => h
  have hstore := h.store
  rw [Store.doomed_of_not_leadsOn hn₁ rfl, Store.modifyAll_cons, Store.modifyAll_nil] at hstore
  have hdoomed := Store.doomed_of_not_leadsOn hn hlead
  refine ⟨?_, ?_, fun y hy => ?_⟩
  · rw [hdoomed]
    intro y hy
    cases List.mem_singleton.mp hy
    exact ⟨_, hn, rfl⟩
  · rintro ⟨m, hm, hlive⟩
    rw [hstore, Store.get?_modify, if_pos rfl, hn₁] at hm
    cases hm
    cases hlive
  · rw [hstore, h₁, hdoomed]
    simp only [Store.modifyAll_cons, Store.modifyAll_nil, Store.get?_modify, if_neg (Ne.symm hy)]

namespace ProxyClass

/-- Whoever hands a structure out checks that it can be deleted. -/
theorem ends_handingOut (c : ProxyClass) (p : OwnedProxy) :
    Ends
      (do
        require p.target.isSome .emptyProxy
        match p.target with
        | none => pure ()
        | some s => require ((← struct s).isSet Layout.del) .undeletable
        emit (.crossed .returned c.ownedTag)
        pure p.target)
      w (fun _ _ => True) fun _ _ => w.store.leadsOn (.ownedProxy p) = false := by
  have hrest {w' : World} (a : Option Id) : Ends (emit (.crossed .returned c.ownedTag) >>= fun _ =>
      pure a) w' (fun _ _ => True) fun _ _ => w.store.leadsOn (.ownedProxy p) = false :=
    ends_modify_bind (ends_pure trivial)
  cases ht : p.target with
  | none =>
    have hlead : w.store.leadsOn (.ownedProxy p) = false := by simp [Store.leadsOn, ht]
    exact ends_bind (ends_mono ends_require (fun _ _ h => h) fun _ _ _ => hlead) fun _ _ _ =>
      hrest none
  | some s =>
    rw [Option.isSome_some, require_true, pure_bind]
    dsimp only
    rw [struct, bind_assoc]
    refine ends_entity_bind fun n hn _ => ?_
    cases hstruct : n.entity.struct? with
    | none => exact ends_refuse
    | some t =>
      rw [ofOption_some_bind]
      refine ends_bind (ends_mono ends_require (fun _ _ h => h) fun _ _ h => ?_) fun _ _ _ =>
        hrest (some s)
      show p.target.any (fun s => w.store.isSet s Layout.del) = false
      rw [ht, Option.any_some, Store.isSet_eq hn hstruct]
      exact h.2.1

/-- A proxy of which no structure could be taken is destroyed all the same. -/
theorem ends_extract_destroys (c : ProxyClass) :
    Ends (c.extract x) w (fun _ _ => True)
      fun e w' => World.Disturbed e w' ∨ w.store.Destroys w'.store x := by
  unfold extract ownedProxy
  rw [bind_assoc]
  refine ends_entity_bind fun n hn hlive => ?_
  obtain ⟨name, e, live⟩ := n
  cases hlive
  cases e with
  | ownedProxy p =>
    dsimp only
    split
    · rw [pure_bind]
      let f : Node → Node := fun n => { n with entity := .ownedProxy { p with target := none } }
      let w₁ : World := { w with store := w.store.modify x f }
      have hlead : w₁.store.leadsOn (.ownedProxy p) = w.store.leadsOn (.ownedProxy p) := by
        show p.target.any _ = p.target.any _
        congr 1
        funext s
        refine Store.isSet_modify (fun n hn' => ?_) s Layout.del
        cases hn.symm.trans hn'
        rfl
      refine ends_modify_bind (w := w) (ends_ensuring (ends_and_respects (c.ends_handingOut p)
        (c.respects_handingOut p)) (fun _ w₂ hu => ?_) fun _ w₂ _ => ?_)
      · have hdispose := ends_dispose_emptied hn (hlead ▸ hu.1) hu.2.store
        exact ends_mono hdispose (fun _ _ h => Or.inr h) fun _ _ _ => trivial
      · exact ends_mono (ends_dispose x w₂) (fun _ _ _ => trivial) fun _ _ hd => Or.inl hd
    · exact ends_refuse
  | _ => exact ends_refuse

/-- An object that is surrendered is destroyed with what it owns, where that unwinds. -/
theorem ends_surrender_destroys (c : ProxyClass) (hl : w.store.Linked)
    (hr : w.store.HasRole x .ownedObject) :
    Ends (c.surrender x) w (fun _ _ => True)
      fun e w' => World.Disturbed e w' ∨ w.store.Destroys w'.store x := by
  have hdispose {w₁ : World} (hq : w.Quiet w₁) :
      Ends (dispose x) w₁ (fun _ w' => w.store.Destroys w'.store x) World.Disturbed := by
    refine ends_mono (ends_dispose x w₁) (fun _ w' h => ?_) fun _ _ h => h
    rw [← hq.store] at hl hr ⊢
    exact h.destroys hl hr
  have hrunning {w₁ : World} (hq : w.Quiet w₁) : Ends (onUnwind requireRunning (dispose x)) w₁
      (fun _ w' => w.Quiet w') fun e w' => World.Disturbed e w' ∨ w.store.Destroys w'.store x :=
    ends_mono (ends_onUnwind_requireRunning x) (fun _ _ h => trans_of World.Quiet hq h)
      fun _ _ hd => Or.inl hd
  have hextract (d : ProxyClass) {w₁ : World} (hq : w.Quiet w₁) : Ends (d.extract x) w₁
      (fun _ _ => True) fun e w' => World.Disturbed e w' ∨ w.store.Destroys w'.store x :=
    hq.store ▸ d.ends_extract_destroys
  refine ends_bind (hrunning (refl_of World.Quiet w)) fun _ w₁ h₁ => ?_
  refine ends_entity_bind fun n hn _ => ?_
  cases n.entity.reportedTag? with
  | none =>
    refine ends_ensuring (V := fun _ w' => w.Quiet w') (P := fun _ w' => w.Quiet w') ?_
      (fun _ _ hq => ?_) fun _ _ hq => ?_
    · exact ends_bind (ends_of_quiet (respects_check _) h₁) fun _ _ hq => ends_pure hq
    · exact ends_mono (hdispose hq) (fun _ _ h => Or.inr h) fun _ _ _ => trivial
    · exact ends_mono (hdispose hq) (fun _ _ _ => trivial) fun _ _ hd => Or.inl hd
  | some found =>
    dsimp only
    split
    · exact hextract c h₁
    · cases c.ownedDerived? found with
      | some d => exact ends_bind (hrunning h₁) fun _ w₂ h₂ => hextract d h₂
      | none =>
        refine ends_bind (ends_mono (hdispose h₁) (fun _ _ h => h) fun _ _ hd => Or.inl hd)
          fun _ w₂ h₂ => ?_
        refine ends_bind (ends_mono (ends_of_respects (respects_check _)) (fun _ _ h => h)
          fun _ _ hq => Or.inr ?_) fun _ _ _ => ends_pure trivial
        exact hq.store.symm ▸ h₂

/-- Where the check of the start of shutdown unwinds, no structure is handed out, and the object
goes. -/
theorem destroys_of_surrender {c : ProxyClass} {e : Failure} (hc : w.IsClosed)
    (hl : w.store.Linked) (hr : w.store.HasRole x .ownedObject)
    (h : c.surrender x .normal w = (.unwound e, w')) : w.store.Destroys w'.store x := by
  have hunwound := ((stops_requireRunning hc).onUnwind (dispose x)).unwound h
  obtain ⟨w₁, hact, hdispose⟩ := unwound_of_onUnwind hunwound
  have hq := quiet_of_requireRunning hact
  have hdisposed := ends_of_done (ends_dispose x w₁) hdispose
  rw [← hq.store] at hl hr ⊢
  exact hdisposed.destroys hl hr

end ProxyClass

/-- An object that is not given away is not destroyed either. -/
theorem OwnedClass.quiet_of_give {c : OwnedClass} {name : String} {e : Failure}
    (h : c.give name x .normal w = (.unwound e, w')) : w.Quiet w' := by
  refine quiet_of_requireRunning (unwound_of_bind (fun _ w₁ => ?_) h)
  exact ends_bind (P := fun _ _ => True) (fun _ => trivial) fun _ _ _ =>
    ends_modify_bind (ends_pure trivial)

end ObjectBoundary
