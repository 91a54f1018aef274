import ObjectBoundary.Owned.Proxy
import ObjectBoundary.Owned.Wrapper
import ObjectBoundary.Device
import ObjectBoundary.Proofs.Acts.Looking
import ObjectBoundary.Proofs.Acts.Still
import ObjectBoundary.Proofs.References.Creation

/-!
# Acts on what has a single owner

Owned objects cross the boundary without any reference: wrapping, taking back and destroying them
leaves all counts alone, however it ends.
-/

namespace ObjectBoundary

open Act

variable {w : World} {x : Id}

/-! ## Disposal -/

namespace Act

theorem respects_disposeAlong (xs : List Id) : Respects World.Still (disposeAlong xs) w := by
  induction xs generalizing w with
  | nil => exact respects_refuse _
  | cons x below ih =>
    apply respects_entity_bind
    intro n hn hlive
    obtain ⟨name, e, live⟩ := n
    change live = true at hlive
    subst hlive
    cases e with
    | ownedObject o => exact respects_destroy hn
    | ownedWrapper v =>
      apply respects_bind (respects_retire hn rfl rfl)
      intro _ _ _
      apply respects_bind (still_of_quiet respects_requireRunning)
      intro _ _ _
      split
      · exact ih
      · exact respects_pure _
    | ownedProxy p =>
      refine respects_bind (respects_retire hn rfl rfl) fun _ _ _ => ?_
      refine respects_bind (still_of_quiet respects_requireRunning) fun _ _ _ => ?_
      cases p.target with
      | none => exact respects_pure _
      | some s => exact respects_through fun _ _ => ih
    | ownedFar f =>
      have hcont : Node.Continues ⟨name, .ownedFar f, true⟩
          ⟨name, .ownedFar { f with deletions := f.deletions + 1 }, true⟩ :=
        ⟨rfl, id, rfl, .refl _⟩
      have hquiet := quiet_emit (e := .called x "del") (fun z => by simp [Event.change?])
        (fun _ => nofun) w
      have hput : Respects World.Still
          (put x (.ownedFar { f with deletions := f.deletions + 1 }))
          { w with log := w.log ++ [.called x "del"] } :=
        respects_put hn (Node.keeps_of_not_isShared rfl hcont) rfl
      exact fun phase => IsTrans.trans _ _ _ hquiet.still (hput phase)
    | _ => exact respects_refuse _

theorem respects_dispose (x : Id) : Respects World.Still (dispose x) w :=
  respects_bind (respects_chain x) fun _ _ _ => respects_disposeAlong _

/-! ## Changes of an owned entity -/

/-- An entity with a single owner may lose its link. -/
theorem respects_put_owned {name : String} {e e' : Entity} {live : Bool}
    (hn : w.store.get? x = some ⟨name, e, live⟩) (hns : e.isShared = false)
    (hc : e.Continues e') (hs : Node.standing ⟨name, e, live⟩ = 1) :
    Respects World.Still (put x e') w := by
  refine respects_put hn (Node.keeps_of_not_isShared hns ⟨rfl, id, hc⟩) ?_
  cases e <;> cases e' <;> first | rfl | contradiction

end Act

/-! ## Wrappers -/

namespace OwnedClass

theorem respects_give (c : OwnedClass) (name : String) (hr : w.store.HasRole x .ownedObject) :
    Respects World.Still (c.give name x) w := by
  apply respects_bind (still_of_quiet respects_requireRunning)
  intro _ w₁ h₁
  refine respects_bind (respects_create rfl rfl ?_) fun _ _ _ => ?_
  · intro _ heq
    cases heq
    exact h₁.continues.hasRole hr
  · exact respects_bind (still_of_quiet (respects_crossed _ _))
      fun _ _ _ => respects_pure _

theorem respects_lend (c : OwnedClass) (name : String) (hr : w.store.HasRole x .ownedObject) :
    Respects World.Still (c.lend name x) w := by
  refine respects_bind (still_of_quiet respects_requireRunning) fun _ w₁ h₁ => ?_
  refine respects_bind (respects_create rfl rfl ?_) fun _ _ _ => ?_
  · rintro _ ⟨⟩
    exact h₁.continues.hasRole hr
  · exact respects_bind (still_of_quiet (respects_crossed _ _))
      fun _ _ _ => respects_pure _

theorem ends_lend (c : OwnedClass) (name : String) (x : Id) :
    Ends (c.lend name x) w (fun y w' => w'.store.IsLent y) fun _ _ => True := by
  apply ends_bind ends_true
  intro _ w₁ _
  refine ends_bind (P := fun y w₂ => w₂.store.IsLent y)
    (fun _ => ⟨_, _, Store.get?_push_size _ _, rfl, rfl⟩) fun y w₂ hy => ?_
  exact ends_bind ends_crossed fun _ w₃ hq => ends_pure (hq.store ▸ hy)

theorem respects_retrieve (c : OwnedClass) (s : Id) : Respects World.Still (c.retrieve s) w := by
  apply respects_entity_bind
  intro n hn hlive
  obtain ⟨name, e, live⟩ := n
  cases e with
  | ownedWrapper v =>
    dsimp only
    cases howns : v.owns with
    | true =>
      rw [require_true, pure_bind, if_pos rfl]
      refine respects_bind (respects_put_owned hn rfl ⟨rfl, howns.symm, Or.inr rfl, .refl _⟩ rfl)
        fun _ _ _ => ?_
      apply respects_bind (respects_dispose s)
      intro _ _ _
      exact respects_bind (still_of_quiet (respects_crossed _ _))
        fun _ _ _ => respects_pure _
    | false =>
      exact respects_map (still_of_quiet (respects_check _))
  | _ => exact respects_refuse _

theorem respects_takeBack (c : OwnedClass) (s : Id) : Respects World.Still (c.takeBack s) w := by
  apply respects_bind (still_of_quiet respects_requireRunning)
  intro _ _ _
  apply respects_bind (still_of_quiet (respects_wrapperTag s))
  intro found _ _
  split
  · exact c.respects_retrieve s
  · cases c.derived? found with
    | some d =>
      exact respects_bind (still_of_quiet respects_requireRunning) fun _ _ _ =>
        d.respects_retrieve s
    | none => exact respects_map (still_of_quiet (respects_check _))

/-- What is taken back is an object. -/
theorem ends_takeBack (c : OwnedClass) (hs : w.store.Sound) (s : Id) :
    Ends (c.takeBack s) w (fun r w' => ∀ o, r = some o → w'.store.HasRole o .ownedObject)
      fun _ _ => True := by
  have hretrieve (d : OwnedClass) {w₁ : World} (hs₁ : w₁.store.Sound) :
      Ends (d.retrieve s) w₁ (fun r w' => ∀ o, r = some o → w'.store.HasRole o .ownedObject)
        fun _ _ => True := by
    have hpure : Ends (d.retrieve s) w₁ (fun r _ => ∀ o, r = some o →
        w₁.store.HasRole o .ownedObject) fun _ _ => True := by
      apply ends_entity_bind
      intro n hn hlive
      obtain ⟨name, e, live⟩ := n
      cases e with
      | ownedWrapper v =>
        apply ends_bind ends_true
        intro _ _ _
        split
        · apply ends_bind ends_true
          intro _ _ _
          apply ends_bind ends_true
          intro _ _ _
          refine ends_bind ends_true fun _ _ _ => ends_pure fun o ho => ?_
          exact (hs₁.linked s _ o hn ho).2
        · exact ends_pure nofun
      | _ => exact ends_refuse
    refine ends_mono (ends_and_respects hpure (d.respects_retrieve s)) ?_ fun _ _ _ => trivial
    rintro r w' ⟨h, hstill⟩ o ho
    exact hstill.continues.hasRole (h o ho)
  have hrunning {w₁ : World} (hs₁ : w₁.store.Sound) :
      Ends requireRunning w₁ (fun _ w₂ => w₂.store.Sound) fun _ _ => True :=
    ends_mono ends_requireRunning (fun _ _ h => h.1.store ▸ hs₁) fun _ _ _ => trivial
  apply ends_bind (hrunning hs)
  intro _ w₁ hs₁
  refine ends_bind (P := fun _ w₂ => w₂.store.Sound) (ends_mono (ends_of_respects
    (respects_wrapperTag s)) (fun _ _ hq => hq.store ▸ hs₁) fun _ _ _ => trivial)
      fun found w₂ hs₂ => ?_
  split
  · exact hretrieve c hs₂
  · cases c.derived? found with
    | some d => exact ends_bind (hrunning hs₂) fun _ w₃ hs₃ => hretrieve d hs₃
    | none => exact ends_bind ends_true fun _ _ _ => ends_pure nofun

theorem respects_borrow (c : OwnedClass) (s : Id) : Respects World.Quiet (c.borrow s) w := by
  apply respects_bind (respects_wrapperTag s)
  intro found _ _
  split
  · exact respects_objectOf c.tag s
  · cases c.derived? found with
    | some d => exact respects_objectOf d.tag s
    | none => exact respects_map (respects_check _)

end OwnedClass

/-! ## Proxies -/

namespace ProxyClass

theorem respects_adopt (c : ProxyClass) (name : String) (hr : w.store.HasRole x .ownedStructure) :
    Respects World.Still (c.adopt name x) w := by
  refine respects_bind (still_of_quiet respects_requireRunning) fun _ w₁ h₁ => ?_
  refine respects_bind (respects_create rfl trivial ?_) fun _ _ _ => ?_
  · rintro _ ⟨⟩
    exact h₁.continues.hasRole hr
  · exact respects_bind (still_of_quiet (respects_crossed _ _))
      fun _ _ _ => respects_pure _

theorem ends_adopt (c : ProxyClass) (name : String) (s : Id) :
    Ends (c.adopt name s) w (fun p w' => w'.store.HasRole p .ownedObject) fun _ _ => True := by
  apply ends_bind ends_true
  intro _ w₁ _
  refine ends_bind (P := fun p w₂ => w₂.store.HasRole p .ownedObject)
    (fun _ => ⟨_, Store.get?_push_size _ _, rfl⟩) fun p w₂ hr => ?_
  exact ends_bind ends_crossed fun _ w₃ hq => ends_pure (hq.store ▸ hr)

/-- An owned proxy of a class is at hand, or the act goes no further. -/
theorem respects_ownedProxy_bind {α : Type} {R : World → World → Prop} [IsPreorder World R]
    (c : ProxyClass) {f : OwnedProxy → Act α}
    (hf : ∀ name p live, w.store.get? x = some ⟨name, .ownedProxy p, live⟩ →
      Respects R (f p) w) :
    Respects R (c.ownedProxy x >>= f) w := by
  unfold ownedProxy
  rw [bind_assoc]
  refine respects_entity_bind fun n hn hlive => ?_
  obtain ⟨name, e, live⟩ := n
  cases e with
  | ownedProxy p =>
    dsimp only
    split
    · exact hf name p live hn
    · exact respects_refuse _
  | _ => exact respects_refuse _

/-- Before a structure is handed out it is only looked at. -/
theorem respects_handingOut (c : ProxyClass) (p : OwnedProxy) :
    Respects World.Quiet
      (do
        require p.target.isSome .emptyProxy
        match p.target with
        | none => pure ()
        | some s => require ((← struct s).isSet Layout.del) .undeletable
        emit (.crossed .returned c.ownedTag)
        pure p.target)
      w := by
  apply respects_bind (respects_require _ _)
  intro _ _ _
  have hrest {w' : World} : Respects World.Quiet
      (emit (.crossed .returned c.ownedTag) >>= fun _ => pure p.target) w' :=
    respects_map (respects_crossed _ _)
  cases p.target with
  | none => exact hrest
  | some s =>
    exact respects_bind (respects_struct s) fun _ _ _ =>
      respects_bind (respects_require _ _) fun _ _ _ => hrest

theorem respects_extract (c : ProxyClass) (x : Id) : Respects World.Still (c.extract x) w := by
  refine respects_ownedProxy_bind c fun name p live hn => ?_
  refine respects_bind (respects_put_owned hn rfl ⟨rfl, Or.inr rfl⟩ rfl) fun _ _ _ => ?_
  exact respects_ensuring (still_of_quiet (c.respects_handingOut p)) fun _ _ => respects_dispose x

theorem respects_surrender (c : ProxyClass) (x : Id) : Respects World.Still (c.surrender x) w := by
  have hdispose {w' : World} : Respects World.Still (dispose x) w' := respects_dispose x
  have hrunning {w' : World} : Respects World.Still (onUnwind requireRunning (dispose x)) w' :=
    respects_onUnwind (still_of_quiet respects_requireRunning) fun _ _ => hdispose
  apply respects_bind hrunning
  intro _ _ _
  refine respects_entity_bind fun n hn hlive => ?_
  cases n.entity.reportedTag? with
  | none =>
    refine respects_ensuring ?_ fun _ _ => hdispose
    exact respects_map (still_of_quiet (respects_check _))
  | some found =>
    dsimp only
    split
    · exact c.respects_extract x
    · cases c.ownedDerived? found with
      | some d => exact respects_bind hrunning fun _ _ _ => d.respects_extract x
      | none =>
        exact respects_bind hdispose fun _ _ _ =>
          respects_map (still_of_quiet (respects_check _))

theorem respects_reveal (c : ProxyClass) (x : Id) : Respects World.Quiet (c.reveal x) w := by
  apply respects_bind respects_requireRunning
  intro _ _ _
  refine respects_entity_bind fun n hn hlive => ?_
  cases n.entity.reportedTag? with
  | none => exact respects_map (respects_check _)
  | some found =>
    dsimp only
    split
    · exact respects_ownedProxy_bind c fun _ _ _ _ => respects_pure _
    · cases c.ownedDerived? found with
      | some d =>
        exact respects_bind respects_requireRunning fun _ _ _ =>
          respects_ownedProxy_bind d fun _ _ _ _ => respects_pure _
      | none => exact respects_map (respects_check _)

theorem respects_takeTarget (x : Id) : Respects World.Still (takeTarget x) w := by
  refine respects_entity_bind fun n hn hlive => ?_
  obtain ⟨name, e, live⟩ := n
  cases e with
  | ownedProxy p =>
    exact respects_bind (respects_put_owned hn rfl ⟨rfl, Or.inr rfl⟩ rfl) fun _ _ _ =>
      respects_pure _
  | _ => exact respects_refuse _

end ProxyClass

end ObjectBoundary
