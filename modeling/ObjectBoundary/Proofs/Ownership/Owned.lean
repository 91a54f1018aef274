import ObjectBoundary.Proofs.Acts.Exchange
import ObjectBoundary.Proofs.Acts.Recovery
import ObjectBoundary.Proofs.Ownership.Apart
import ObjectBoundary.Proofs.Ownership.Disposal

/-!
# Custody in the acts on owned entities

What wrapping, taking back, adopting and destroying do to custody: which loose object they take up
or bring, and what ceases to exist by them.

* `OwnedClass.retrieved`, `ProxyClass.surrendered`, `Store.deletedBy`: what ceases to exist by an
  act.
* `ends_give_custody` and its like: what each act does, unless the check of the start of shutdown
  has failed.
-/

namespace ObjectBoundary

open Act

variable {w w₁ : World} {x s : Id} {n : Node} {name : String}

/-! ## Custody from one world to another -/

namespace World

/-- How custody has changed from one world to another. -/
abbrev Custody (w w' : World) (δ : Id → Int) (gone : List Id) : Prop :=
  w.store.Custody w'.store δ gone

theorem Quiet.custody (h : w.Quiet w₁) : w.Custody w₁ 0 [] := h.apart.custody

theorem Quiet.trans_custody {w₂ : World} {δ : Id → Int} {gone : List Id} (hq : w.Quiet w₁)
    (h : w₁.Custody w₂ δ gone) : w.Custody w₂ δ gone := by
  unfold Custody at h ⊢
  rwa [hq.store] at h

theorem Custody.quiet {w₂ : World} {δ : Id → Int} {gone : List Id} (h : w.Custody w₁ δ gone)
    (hq : w₁.Quiet w₂) : w.Custody w₂ δ gone := by
  unfold Custody at h ⊢
  rwa [hq.store]

end World

namespace Act

/-! ## New wrappers and proxies -/

/-- A new entity of the boundary, made while shutdown has not begun. -/
theorem ends_cross {e : Entity} {c : Crossing} {t : Tag} :
    Ends
      (do
        requireRunning
        let x ← create name e
        emit (.crossed c t)
        pure x)
      w (fun x w' => x = w.store.size ∧ w'.store = w.store.push ⟨name, e, true⟩)
      World.Disturbed := by
  refine ends_bind (ends_mono ends_requireRunning (fun _ _ h => h.1) fun _ _ h => h.1) ?_
  intro _ w₁ h₁
  rw [← h₁.store]
  exact ends_bind (P := fun x w' => x = w₁.store.size ∧ w'.store = w₁.store.push ⟨name, e, true⟩)
    (fun _ => ⟨rfl, rfl⟩) fun x w₂ h₂ => ends_modify_bind (ends_pure h₂)

/-! ## Disposal -/

/-- What is destroyed is destroyed with all that it owns. -/
theorem ends_dispose_custody (hl : w.store.Linked) (x : Id) :
    Ends (dispose x) w
      (fun _ w' => w.Custody w' (fun z => -credit (some x) (w.store.presence x) z)
        (w.store.doomed (w.store.chain x)))
      World.Disturbed := by
  refine ends_mono (ends_dispose x w) (fun _ w' h => ?_) fun _ _ h => h
  have := Store.custody_disposed hl x h.live
  rwa [← h.store] at this

/-- An object that is destroyed was loose. -/
theorem ends_dispose_object (hl : w.store.Linked) (hr : w.store.HasRole x .ownedObject) :
    Ends (dispose x) w
      (fun _ w' => w.Custody w' (credit (some x) (-1)) (w.store.doomed (w.store.chain x)))
      World.Disturbed := by
  refine ends_mono (ends_dispose_custody hl x) (fun _ _ h => h.of_eq fun z => ?_) fun _ _ h => h
  obtain ⟨n, hn, hlive⟩ := h.gone x List.mem_cons_self
  obtain ⟨m, hm, hrole⟩ := hr
  cases hn.symm.trans hm
  have hpresence : w.store.presence x = 1 := (Store.presence_eq hn).trans (if_pos ⟨hlive, hrole⟩)
  rw [hpresence, credit_neg]
  rfl

/-- An entity that has lost its link is destroyed alone. -/
theorem ends_dispose_vacated {e : Entity} (e' : Entity)
    (hn : w.store.get? x = some ⟨name, e, true⟩) (he : e'.isOwned = true)
    (hg : e.isGuarded = true → e'.isGuarded = true) (hlink : ∀ st : Store, st.leadsOn e' = false)
    (h₁ : w₁.store = w.store.modify x fun n => { n with entity := e' }) :
    Ends (dispose x) w₁
      (fun _ w' => w.Custody w' (fun z => -Node.share x z ⟨name, e, true⟩) [x])
      World.Disturbed := by
  have hn₁ : w₁.store.get? x = some ⟨name, e', true⟩ := by
    rw [h₁, Store.get?_modify, if_pos rfl, hn]
    rfl
  refine ends_mono (ends_dispose x w₁) (fun _ w' h => ?_) fun _ _ h => h
  have hstore := h.store
  rw [Store.doomed_of_not_leadsOn hn₁ (hlink _), Store.modifyAll_cons, Store.modifyAll_nil, h₁,
    Store.modify_modify] at hstore
  rw [World.Custody, hstore]
  let n' : Node := ⟨name, e', true⟩
  have hdead : n'.disposed.live = false :=
    (Store.live_disposed n').resolve_right (by rw [he]; exact Bool.noConfusion)
  have hguarded : e.isGuarded = true → n'.disposed.entity.isGuarded = true := fun h => by
    rw [Store.isGuarded_disposed]
    exact hg h
  refine ((Store.Custody.refl w.store).modify hn hn rfl (Or.inl hdead) hguarded).of_eq fun z => ?_
  have hshare : n'.disposed.share x z = 0 := Store.share_disposed n' x z
  show 0 + (n'.disposed.share x z - _) = _
  rw [hshare, zero_add, zero_sub]

end Act

/-! ## Wrappers -/

namespace OwnedClass

/-- Whether a class takes the object out of a wrapper. -/
def retrieves (c : OwnedClass) : Entity → Bool
  | .ownedWrapper v => v.owns && decide (c.Recovers v.cls)
  | _ => false

/-- Whether a class empties the wrapper behind a structure. -/
def empties (c : OwnedClass) (st : Store) (s : Id) : Bool :=
  (st.get? s).any fun n => c.retrieves n.entity

/-- The wrapper that ceases to exist when a class takes its object back. -/
def retrieved (c : OwnedClass) (st : Store) (s : Id) : List Id :=
  if c.empties st s then [s] else []

theorem ends_give_custody (c : OwnedClass) (name : String) (x : Id) :
    Ends (c.give name x) w (fun _ w' => w.Custody w' (credit (some x) (-1)) [])
      World.Disturbed := by
  refine ends_mono ends_cross (fun y w' h => ?_) fun _ _ h => h
  rw [World.Custody, h.2]
  refine (Store.custody_push rfl).of_eq fun z => ?_
  rw [Node.share_wrapper, if_pos rfl, credit_neg]
  rfl

theorem ends_lend_custody (c : OwnedClass) (name : String) (x : Id) :
    Ends (c.lend name x) w (fun _ w' => w.Custody w' 0 []) World.Disturbed := by
  refine ends_mono ends_cross (fun y w' h => ?_) fun _ _ h => h
  rw [World.Custody, h.2]
  refine (Store.custody_push ?_).of_eq fun z => ?_
  · cases c <;> rfl
  · rw [Node.share_wrapper, if_neg Bool.false_ne_true, credit_none]
    exact neg_zero

/-- What is taken back is loose, and its wrapper is no more. -/
theorem ends_retrieve_custody (c : OwnedClass) {v : OwnedWrapper} {live : Bool}
    (hn : w.store.get? s = some ⟨name, .ownedWrapper v, live⟩) :
    Ends (c.retrieve s) w
      (fun r w' => w.Custody w' (credit r 1) (if v.owns then [s] else []))
      fun e w' => World.Disturbed e w' ∨ w.Custody w' 0 (if v.owns then [s] else []) := by
  apply ends_entity_bind
  intro n hn' hlive
  cases hn.symm.trans hn'
  cases hlive
  obtain ⟨cls, object, struct, owns⟩ := v
  cases owns with
  | false =>
    refine ends_bind (P := fun _ w' => w.Quiet w') (ends_mono (ends_of_respects
      (respects_check _)) (fun _ _ h => h) fun _ _ h => Or.inr h.custody) fun _ w₁ h₁ => ?_
    exact ends_pure h₁.custody
  | true =>
    let e : Entity := .ownedWrapper ⟨cls, none, struct, true⟩
    let w₁ : World := { w with store := w.store.modify s fun n => { n with entity := e } }
    have hvacated : Ends (dispose s) w₁ _ World.Disturbed :=
      ends_dispose_vacated e hn rfl id (fun _ => rfl) rfl
    show Ends (put s e >>= fun _ => dispose s >>= fun _ => _) w _ _
    apply ends_modify_bind
    refine ends_bind (ends_mono hvacated (fun _ _ h => h) fun _ _ h => Or.inl h) fun _ w₂ h₂ => ?_
    refine ends_modify_bind (ends_pure (h₂.of_eq fun z => ?_))
    rw [Node.share_wrapper, if_pos rfl, neg_neg]

/-- What a class takes back is loose, if it knows the wrapper and the wrapper owns it. -/
theorem ends_takeBack_custody (c : OwnedClass) (s : Id) :
    Ends (c.takeBack s) w
      (fun r w' => w.Custody w' (credit r 1) (c.retrieved w.store s))
      fun e w' => World.Disturbed e w' ∨ w.Custody w' 0 (c.retrieved w.store s) := by
  refine ends_bind (ends_mono ends_requireRunning (fun _ _ h => h.1) fun _ _ h => Or.inl h.1)
    fun _ w₁ h₁ => ?_
  rw [← h₁.store]
  suffices Ends _ w₁ (fun r w' => w₁.Custody w' (credit r 1) (c.retrieved w₁.store s))
      fun e w' => World.Disturbed e w' ∨ w₁.Custody w' 0 (c.retrieved w₁.store s) from
    ends_mono this (fun _ _ h => h₁.trans_custody h) fun _ _ h => h.imp id h₁.trans_custody
  apply ends_wrapperTag_bind
  intro n t hn ht
  have hretrieved : c.retrieved w₁.store s = if c.retrieves n.entity then [s] else [] := by
    rw [retrieved, empties, hn, Option.any_some]
  rw [hretrieved]
  have hcheck (failure : Failure) : Ends (check failure >>= fun _ => (pure none : Act (Option Id)))
      w₁ (fun r w' => w₁.Custody w' (credit r 1) [])
      fun e w' => World.Disturbed e w' ∨ w₁.Custody w' 0 [] :=
    ends_bind (P := fun _ w' => w₁.Quiet w') (ends_mono (ends_of_respects (respects_check _))
      (fun _ _ h => h) fun _ _ h => Or.inr h.custody) fun _ w₂ h₂ => ends_pure h₂.custody
  obtain ⟨name, e, live⟩ := n
  cases e with
  | ownedWrapper v =>
    cases ht
    have hknown (h : c.Recovers v.cls) : c.retrieves (.ownedWrapper v) = v.owns := by
      simp [retrieves, h]
    rcases c.recovers_cases v.cls with ⟨htag, h⟩ | ⟨htag, hderived, -, h⟩ | ⟨htag, hderived, h⟩
    · rw [if_pos htag, hknown h]
      exact ends_retrieve_custody c hn
    · rw [if_neg htag, hderived, hknown h]
      refine ends_bind (ends_mono ends_requireRunning (fun _ _ h => h.1) fun _ _ h => Or.inl h.1)
        fun _ w₂ h₂ => ?_
      exact ends_mono (ends_retrieve_custody child (h₂.store ▸ hn))
        (fun _ _ h => h₂.trans_custody h) fun _ _ h => h.imp id h₂.trans_custody
    · rw [if_neg htag, hderived]
      have hunknown : c.retrieves (.ownedWrapper v) = false := by simp [retrieves, h]
      rw [hunknown]
      exact hcheck _
  | sharedWrapper v =>
    cases ht
    have hderived : c.derived? v.cls.tag = none :=
      if_neg fun h => tag_ne_sharedTag child v.cls h.2.symm
    rw [if_neg fun h : v.cls.tag = c.tag => c.tag_ne_sharedTag v.cls h.symm, hderived]
    exact hcheck _
  | _ => cases ht

/-- What is taken back from a wrapper that owns it is its object. -/
theorem ends_takeBack_object {c : OwnedClass} {v : OwnedWrapper} {live : Bool}
    (hn : w.store.get? s = some ⟨name, .ownedWrapper v, live⟩) (hc : c.Recovers v.cls)
    (hv : v.owns = true) : Ends (c.takeBack s) w (fun r _ => r = v.object) World.Disturbed := by
  have hretrieve (d : OwnedClass) {w₁ : World} (hq : w.Quiet w₁) :
      Ends (d.retrieve s) w₁ (fun r _ => r = v.object) World.Disturbed := by
    apply ends_entity_bind
    intro n hn' _
    cases hn.symm.trans (hq.store ▸ hn')
    dsimp only
    rw [hv, require_true, pure_bind, if_pos rfl]
    apply ends_modify_bind
    refine ends_bind (ends_mono (ends_dispose s _) (fun _ _ h => h) fun _ _ h => h) fun _ w₂ _ => ?_
    exact ends_modify_bind (ends_pure rfl)
  refine ends_bind (ends_mono ends_requireRunning (fun _ _ h => h.1) fun _ _ h => h.1)
    fun _ w₁ h₁ => ?_
  apply ends_wrapperTag_bind
  intro n t hn' ht
  cases hn.symm.trans (h₁.store ▸ hn')
  cases ht
  rcases c.recovers_cases v.cls with ⟨htag, -⟩ | ⟨htag, hderived, -, -⟩ | ⟨-, -, hnot⟩
  · rw [if_pos htag]
    exact hretrieve c h₁
  · rw [if_neg htag, hderived]
    refine ends_bind (ends_mono ends_requireRunning (fun _ _ h => h.1) fun _ _ h => h.1)
      fun _ w₂ h₂ => ?_
    exact hretrieve child (trans_of World.Quiet h₁ h₂)
  · exact absurd hc hnot

end OwnedClass

/-! ## Proxies -/

namespace ProxyClass

instance (c d : ProxyClass) : Decidable (c.Recovers d) := inferInstanceAs (Decidable (_ ∨ _))

/-- Whether a class takes the structure out of a proxy. -/
def extracts (c : ProxyClass) : Entity → Bool
  | .ownedProxy p => decide (c.Recovers p.cls)
  | _ => false

theorem recovers_of_ownedDerived? {c d : ProxyClass} {found : Tag}
    (h : c.ownedDerived? found = some d) : c.Recovers d := by
  unfold ownedDerived? at h
  split at h
  · rename_i hderived
    cases h
    exact Or.inr ⟨hderived.1, rfl⟩
  · cases h

/-- What is no proxy has no structure that could be taken out. -/
theorem extracts_of_reportedTag?_none {c : ProxyClass} {e : Entity} (h : e.reportedTag? = none) :
    c.extracts e = false := by
  cases e <;> first | rfl | cases h

/-- A class takes nothing out of a proxy that it does not know. -/
theorem extracts_of_ownedDerived?_none {c : ProxyClass} {e : Entity} {found : Tag}
    (h : e.reportedTag? = some found) (hfound : found ≠ c.ownedTag)
    (hd : c.ownedDerived? found = none) : c.extracts e = false := by
  cases e with
  | ownedProxy p =>
    cases h
    refine decide_eq_false ?_
    rintro (rfl | ⟨rfl, hcls⟩)
    · exact hfound rfl
    · rw [hcls] at hd
      cases hd
  | _ => rfl

/-- Whether an object is a proxy that a class empties. -/
def empties (c : ProxyClass) (st : Store) (x : Id) : Bool :=
  (st.get? x).any fun n => c.extracts n.entity

/-- What ceases to exist when an object is given up to a class: a proxy alone, if the class knows
it, and otherwise all that is owned through the object. -/
def surrendered (c : ProxyClass) (st : Store) (x : Id) : List Id :=
  if c.empties st x then [x] else st.doomed (st.chain x)

theorem ends_adopt_custody (c : ProxyClass) (name : String) (s : Id) :
    Ends (c.adopt name s) w (fun p w' => w.Custody w' (credit (some p) 1) []) World.Disturbed := by
  refine ends_mono ends_cross (fun p w' h => ?_) fun _ _ h => h
  rw [World.Custody, h.2, h.1]
  exact (Store.custody_push rfl).of_eq fun z => Node.share_object rfl rfl _ z

/-- A structure that is taken out leaves its proxy to be destroyed alone. -/
theorem ends_extract_custody (c : ProxyClass) {gone : List Id}
    (hgone : ∀ name p live, w.store.get? x = some ⟨name, .ownedProxy p, live⟩ → p.cls = c →
      gone = [x]) :
    Ends (c.extract x) w (fun _ w' => w.Custody w' (credit (some x) (-1)) gone)
      fun e w' => World.Disturbed e w' ∨ w.Custody w' (credit (some x) (-1)) gone := by
  unfold extract ownedProxy
  rw [bind_assoc]
  apply ends_entity_bind
  intro n hn hlive
  obtain ⟨name, e, live⟩ := n
  cases hlive
  cases e with
  | ownedProxy p =>
    dsimp only
    split
    · rename_i hcls
      rw [hgone name p true hn hcls, pure_bind]
      let e : Entity := .ownedProxy { p with target := none }
      let w₁ : World := { w with store := w.store.modify x fun n => { n with entity := e } }
      have hdispose {w' : World} (hq : w₁.Quiet w') : Ends (dispose x) w'
          (fun _ w'' => w.Custody w'' (credit (some x) (-1)) [x]) World.Disturbed := by
        refine ends_mono (ends_dispose_vacated e hn rfl id (fun _ => rfl) hq.store)
          (fun _ w'' h => h.of_eq fun z => ?_) fun _ _ h => h
        rw [Node.share_object rfl rfl, credit_neg]
        rfl
      apply ends_modify_bind
      refine ends_ensuring (ends_of_respects (c.respects_handingOut p)) ?_ ?_
      · intro _ w' hq
        exact ends_mono (hdispose hq) (fun _ _ h => Or.inr h) fun _ _ _ => trivial
      · intro _ w' hq
        exact ends_mono (hdispose hq) (fun _ _ h => h) fun _ _ h => Or.inl h
    · exact ends_refuse
  | _ => exact ends_refuse

/-- The check of the start of shutdown, before which an object that is given up is destroyed. -/
theorem ends_onUnwind_requireRunning (x : Id) :
    Ends (onUnwind requireRunning (dispose x)) w (fun _ w' => w.Quiet w') World.Disturbed := by
  refine ends_onUnwind (ends_mono ends_requireRunning (fun _ _ h => h.1) fun _ _ h => h.1) ?_
  exact fun _ _ hd => ends_disturbed (composed_dispose x) hd

/-- A loose object that is given up is loose no more, whatever becomes of it. -/
theorem ends_surrender_custody (c : ProxyClass) (hl : w.store.Linked)
    (hr : w.store.HasRole x .ownedObject) :
    Ends (c.surrender x) w
      (fun _ w' => w.Custody w' (credit (some x) (-1)) (c.surrendered w.store x))
      fun e w' => World.Disturbed e w' ∨
        w.Custody w' (credit (some x) (-1)) (c.surrendered w.store x) := by
  refine ends_bind (ends_mono (ends_onUnwind_requireRunning x) (fun _ _ h => h)
    fun _ _ h => Or.inl h) fun _ w₁ h₁ => ?_
  rw [← h₁.store] at hl hr ⊢
  suffices Ends _ w₁ (fun _ w' => w₁.Custody w' (credit (some x) (-1)) (c.surrendered w₁.store x))
      fun e w' => World.Disturbed e w' ∨
        w₁.Custody w' (credit (some x) (-1)) (c.surrendered w₁.store x) from
    ends_mono this (fun _ _ h => h₁.trans_custody h) fun _ _ h => h.imp id h₁.trans_custody
  apply ends_entity_bind
  intro n hn hlive
  have hsurrendered : c.surrendered w₁.store x =
      if c.extracts n.entity then [x] else w₁.store.doomed (w₁.store.chain x) := by
    rw [surrendered, empties, hn, Option.any_some]
  rw [hsurrendered]
  have hdispose {w₂ : World} (hq : w₁.Quiet w₂) : Ends (dispose x) w₂
      (fun _ w' => w₁.Custody w' (credit (some x) (-1)) (w₁.store.doomed (w₁.store.chain x)))
      World.Disturbed := by
    have := ends_dispose_object (hq.store ▸ hl) (hq.store ▸ hr)
    rw [hq.store] at this
    exact ends_mono this (fun _ _ h => hq.trans_custody h) fun _ _ h => h
  have hextract (d : ProxyClass) (hd : c.Recovers d) {w₂ : World} (hq : w₁.Quiet w₂) :
      Ends (d.extract x) w₂
        (fun _ w' => w₁.Custody w' (credit (some x) (-1))
          (if c.extracts n.entity then [x] else w₁.store.doomed (w₁.store.chain x)))
        fun e w' => World.Disturbed e w' ∨ w₁.Custody w' (credit (some x) (-1))
          (if c.extracts n.entity then [x] else w₁.store.doomed (w₁.store.chain x)) := by
    refine ends_mono (d.ends_extract_custody ?_) (fun _ _ h => hq.trans_custody h)
      fun _ _ h => h.imp id hq.trans_custody
    intro name p live hn₂ hcls
    cases hn.symm.trans (hq.store ▸ hn₂)
    exact if_pos (decide_eq_true (hcls ▸ hd))
  cases ht : n.entity.reportedTag? with
  | none =>
    rw [extracts_of_reportedTag?_none ht]
    refine ends_ensuring (P := fun _ w' => w₁.Quiet w') (V := fun _ w' => w₁.Quiet w') ?_
      (fun _ _ hq => ?_) fun _ _ hq => ?_
    · exact ends_of_respects (respects_map (respects_check _))
    · exact ends_mono (hdispose hq) (fun _ _ h => Or.inr h) fun _ _ _ => trivial
    · exact ends_mono (hdispose hq) (fun _ _ h => h) fun _ _ h => Or.inl h
  | some found =>
    dsimp only
    split
    · exact hextract c (Or.inl rfl) (refl_of World.Quiet w₁)
    · rename_i hfound
      cases hd : c.ownedDerived? found with
      | some d =>
        refine ends_bind (ends_mono (ends_onUnwind_requireRunning x) (fun _ _ h => h)
          fun _ _ h => Or.inl h) fun _ w₂ h₂ => ?_
        exact hextract d (recovers_of_ownedDerived? hd) h₂
      | none =>
        rw [extracts_of_ownedDerived?_none ht hfound hd]
        refine ends_bind (ends_mono (hdispose (refl_of World.Quiet w₁)) (fun _ _ h => h)
          fun _ _ h => Or.inl h) fun _ w₂ h₂ => ?_
        refine ends_bind (ends_mono (ends_of_respects (respects_check _)) (fun _ _ h => h)
          fun _ _ hq => Or.inr (h₂.quiet hq)) fun _ w₃ hq => ends_pure (h₂.quiet hq)

theorem ends_takeTarget_custody (x : Id) {U : Failure → World → Prop} :
    Ends (takeTarget x) w (fun _ w' => w.Custody w' 0 []) U := by
  apply ends_entity_bind
  intro n hn hlive
  obtain ⟨name, e, live⟩ := n
  cases e with
  | ownedProxy p =>
    refine ends_modify_bind (ends_pure ((Store.custody_modify hn rfl id).of_eq fun z => ?_))
    exact sub_self _
  | _ => exact ends_refuse

end ProxyClass

/-! ## Structures -/

/-- What ceases to exist when the function `del` of a structure is called. -/
def Store.deletedBy (st : Store) (s : Id) (r : Option Id) : List Id :=
  (st.callee? s Layout.del r).elim [] fun x => st.doomed (st.chain x)

theorem Entity.role_of_wrapperTag? {e : Entity} {t : Tag} (h : e.wrapperTag? = some t) :
    e.role ≠ .ownedObject := by
  cases e with
  | sharedWrapper v => exact nofun
  | ownedWrapper v => exact nofun
  | _ => cases h

namespace Act

variable {r : Option Id}

/-- A structure is no object, so nothing that is loose goes with it. -/
theorem ends_dispose_structure (hl : w.store.Linked) (hn : w.store.get? x = some n)
    (hr : n.entity.role ≠ .ownedObject) :
    Ends (dispose x) w (fun _ w' => w.Custody w' 0 (w.store.doomed (w.store.chain x)))
      World.Disturbed := by
  have hpresence : w.store.presence x = 0 := (Store.presence_eq hn).trans (if_neg fun h => hr h.2)
  have := ends_dispose_custody hl x
  rw [hpresence] at this
  refine ends_mono this (fun _ _ h => h.of_eq fun z => ?_) fun _ _ h => h
  simp [credit]

/-- The function `del` of a wrapper destroys the wrapper behind the receiver. -/
theorem ends_ownedMember_custody {v : OwnedWrapper} {live : Bool} (hl : w.store.Linked)
    (hn : w.store.get? s = some ⟨name, .ownedWrapper v, live⟩) {i : Nat}
    (hset : w.store.isSet s i = true) :
    Ends (ownedMember v.cls i r) w
      (fun _ w' => w.Custody w' 0 (if i = Layout.del then w.store.deletedBy s r else []))
      fun _ _ => True := by
  match i with
  | 0 =>
    have htag : w.store.wrapperTag? s = some v.cls.tag := by
      rw [Store.wrapperTag?_eq hn]
      rfl
    have hcallee : w.store.callee? s Layout.del r =
        r.filter fun x => decide (w.store.wrapperTag? x = some v.cls.tag) := by
      rw [Store.callee?, if_pos (show w.store.isSet s Layout.del = true from hset), htag]
    refine ends_bind (P := fun _ w' => w.Custody w' 0 (w.store.deletedBy s r)) ?_
      fun _ w' h => ends_pure h
    apply ends_baseMember_cases
    · intro w' hq hnone
      rw [Store.deletedBy, hcallee, hnone]
      exact hq.custody
    · intro x w' hq hx hsome
      rw [Store.deletedBy, hcallee, hsome]
      obtain ⟨m, hm, ht⟩ := Option.bind_eq_some_iff.mp hx
      refine ends_mono (ends_dispose_structure (hq.store ▸ hl) (hq.store ▸ hm)
        (Entity.role_of_wrapperTag? ht)) (fun _ _ h => ?_) fun _ _ _ => trivial
      have := hq.trans_custody h
      rwa [hq.store] at this
  | index + 1 =>
    exact ends_mono (ends_of_respects (respects_reply (respects_interfaceMember _ _ _)))
      (fun _ _ hq => hq.custody) fun _ _ _ => trivial

theorem ends_ownedFarMember_custody {x : Id} {i : Nat} (hl : w.store.Linked)
    (hset : w.store.isSet s i = true) (htag : w.store.wrapperTag? s = none) :
    Ends (ownedFarMember i x) w
      (fun _ w' => w.Custody w' 0 (if i = Layout.del then w.store.deletedBy s (some x) else []))
      fun e w' => World.Disturbed e w' ∨
        w.Custody w' 0 (if i = Layout.del then w.store.deletedBy s (some x) else []) := by
  apply ends_entity_bind
  intro n hn hlive
  obtain ⟨name, e, live⟩ := n
  cases e with
  | ownedFar f =>
    cases i with
    | zero =>
      have hx : w.store.wrapperTag? x = none := by
        rw [Store.wrapperTag?_eq hn]
        rfl
      have hdeleted : w.store.deletedBy s (some x) = w.store.doomed (w.store.chain x) := by
        have hcallee : w.store.callee? s Layout.del (some x) = some x := by
          rw [Store.callee?, if_pos (show w.store.isSet s Layout.del = true from hset), htag]
          simp [hx]
        rw [Store.deletedBy, hcallee, Option.elim_some]
      refine ends_bind (P := fun _ w' => w.Custody w' 0 (w.store.deletedBy s (some x))) ?_
        fun _ w' h => ends_pure h
      rw [hdeleted]
      have hrole : Role.ownedStructure ≠ .ownedObject := by decide
      exact ends_mono (ends_dispose_structure hl hn hrole) (fun _ _ h => h) fun _ _ h => Or.inl h
    | succ index =>
      exact ends_mono (ends_of_respects (respects_reply (respects_farAnswer x _ _)))
        (fun _ _ hq => hq.custody) fun _ _ hq => Or.inr hq.custody
  | _ => exact ends_refuse

/-- A call of a member of an owned structure destroys what `del` destroys, and nothing else. -/
theorem ends_call_custody (hl : w.store.Linked) (hr : w.store.HasRole s .ownedStructure) (i : Nat) :
    Ends (call s i r) w
      (fun _ w' => w.Custody w' 0 (if i = Layout.del then w.store.deletedBy s r else []))
      fun e w' => World.Disturbed e w' ∨
        w.Custody w' 0 (if i = Layout.del then w.store.deletedBy s r else []) := by
  obtain ⟨m, hm, hrole⟩ := hr
  apply ends_entity_bind
  intro n hn hlive
  cases hm.symm.trans hn
  obtain ⟨name, e, live⟩ := m
  cases ht : e.struct? with
  | none => exact ends_refuse
  | some t =>
    refine ends_ofOption_bind rfl ?_
    have hset := Store.isSet_eq hm ht i
    split
    · rename_i hi
      rw [hi] at hset
      cases e with
      | ownedWrapper v => exact ends_contained (ends_ownedMember_custody hl hm hset)
      | ownedFar f =>
        cases r with
        | none => exact ends_refuse
        | some x =>
          have htag : w.store.wrapperTag? s = none := by
            rw [Store.wrapperTag?_eq hm]
            rfl
          exact ends_ownedFarMember_custody hl hset htag
      | _ => cases hrole
    · rename_i hi
      rw [Bool.not_eq_true] at hi
      rw [hi] at hset
      have hnone : (if i = Layout.del then w.store.deletedBy s r else []) = [] := by
        split
        · rename_i hdel
          rw [Store.deletedBy, Store.callee?, ← hdel, hset]
          rfl
        · rfl
      rw [hnone]
      exact ends_pure (refl_of World.Quiet w).custody

/-- What a structure says about itself concerns nobody who owns something. -/
theorem ends_withStruct_custody {e : Entity} {t t' : Structure} {U : Failure → World → Prop}
    (hn : w.store.get? s = some ⟨name, e, true⟩) (ht : e.struct? = some t) (hc : t.Continues t') :
    Ends (put s (e.withStruct t')) w (fun _ w' => w.Custody w' 0 []) U := by
  refine ends_modify ((Store.custody_modify hn rfl fun hg => ?_).of_eq fun z => ?_)
  · cases e with
    | ownedWrapper v =>
      cases ht
      change (v.owns || !v.struct.isSet Layout.del) = true at hg
      show (v.owns || !t'.isSet Layout.del) = true
      cases howns : v.owns with
      | true => rfl
      | false =>
        rw [howns, Bool.false_or, Bool.not_eq_true'] at hg
        have hclear : t'.isSet Layout.del = false :=
          Bool.eq_false_iff.mpr fun h => Bool.false_ne_true (hg.symm.trans (hc.isSet _ h))
        rw [hclear]
        rfl
    | _ => rfl
  · cases e <;> exact sub_self _

end Act

end ObjectBoundary
