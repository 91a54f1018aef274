import ObjectBoundary.Proofs.Session.Conservation
import ObjectBoundary.Proofs.Session.Retreat
import ObjectBoundary.Proofs.Session.Undisturbed
import ObjectBoundary.Proofs.Yields

/-!
# Wrappers and their objects

A live wrapper refers to a live object, which has at least as many references as the wrapper. A step
that unwinds leaves it so, with one exception: a reference to a wrapper that is given up with the
last one to the proxy in it, after the start of shutdown. The check in the destruction of the proxy
unwinds before the wrapper has given up anything.

* `Store.Backs`: the law, for one wrapper of a store.
* `Supervised.abreast`: only the steps that signal the start of shutdown begin it.
* `State.prepares_step`: once it has begun, the settings are in force.
* `Reachable.exists_balanced`: as long as no wrapper is severed, references are in balance.
* `wrappers_backed`: the law holds after a step that unwinds, unless the step severs the wrapper.
* `not_wrappers_backed`: that it may do.
-/

namespace ObjectBoundary

namespace Store

variable {st : Store} {y : Id} {name : String} {v : SharedWrapper}

/-- The object of a wrapper is live, and it has at least as many references as the wrapper. -/
def Backs (st : Store) (v : SharedWrapper) : Prop :=
  ∃ n c, st.get? v.object = some n ∧ n.live = true ∧ n.entity.role = .sharedObject ∧
    n.entity.sharedCount? = some c ∧ v.count.toNat ≤ c.toNat

/-- A live wrapper owns references to its object. -/
theorem Sound.wraps (hs : st.Sound) (hy : st.get? y = some ⟨name, .sharedWrapper v, true⟩) :
    0 < v.count.toNat ∧ Node.wraps v.object ⟨name, .sharedWrapper v, true⟩ = v.count.toNat :=
  ⟨(hs.counted y _ hy).live_iff.mp rfl, if_pos ⟨rfl, rfl⟩⟩

/-- The object of a wrapper is there as long as there are references to it. -/
theorem Sound.exists_object (hs : st.Sound)
    (hy : st.get? y = some ⟨name, .sharedWrapper v, true⟩) :
    ∃ n c, st.get? v.object = some n ∧ n.entity.role = .sharedObject ∧
      n.entity.sharedCount? = some c ∧ (n.live = true ↔ 0 < c.toNat) ∧
      st.references v.object = c.toNat := by
  obtain ⟨-, n, hn, hrole⟩ := hs.linked y _ v.object hy rfl
  obtain ⟨c, hc⟩ := Entity.sharedCount?_of_role hrole
  refine ⟨n, c, hn, hrole, hc, ((hs.counted _ n hn).fits hc).live_iff, ?_⟩
  rw [references, hn]
  exact Entity.references_of_sharedCount? hc

/-- An object backs its wrappers if no reference to it is missing. -/
theorem Sound.backs (hs : st.Sound) (hy : st.get? y = some ⟨name, .sharedWrapper v, true⟩)
    (hout : 0 ≤ st.outside v.object) : st.Backs v := by
  obtain ⟨n, c, hn, hrole, hc, hlive, href⟩ := hs.exists_object hy
  obtain ⟨hpos, hwraps⟩ := hs.wraps hy
  have hle : v.count.toNat ≤ st.wrapped v.object := hwraps ▸ st.le_total _ hy
  unfold outside at hout
  refine ⟨n, c, hn, hlive.mpr ?_, hrole, hc, ?_⟩ <;> omega

/-- If an object with two wrappers is gone, more than one reference to it is missing. -/
theorem Sound.outside_lt {u : Id} {name' : String} {v' : SharedWrapper} (hs : st.Sound)
    (hy : st.get? y = some ⟨name, .sharedWrapper v, true⟩)
    (hu : st.get? u = some ⟨name', .sharedWrapper v', true⟩) (hne : y ≠ u)
    (hobject : v.object = v'.object) (hgone : ∃ m, st.get? v.object = some m ∧ m.live = false) :
    st.outside v.object < -1 := by
  obtain ⟨m, hm, hdead⟩ := hgone
  obtain ⟨n, c, hn, -, -, hlive, href⟩ := hs.exists_object hy
  cases hm.symm.trans hn
  have hzero : ¬ 0 < c.toNat := by
    rw [← hlive, hdead]
    exact Bool.noConfusion
  obtain ⟨hpos, hwraps⟩ := hs.wraps hy
  obtain ⟨hpos', hwraps'⟩ := hs.wraps hu
  rw [← hobject] at hwraps'
  have hle : v.count.toNat + v'.count.toNat ≤ st.wrapped v.object :=
    hwraps ▸ hwraps' ▸ st.add_le_total _ hy hu hne
  unfold outside
  omega

end Store

/-! ## The start of shutdown -/

/-- Shutdown has begun in both worlds or in neither. -/
def World.Abreast (w w' : World) : Prop := w'.isShutdown = w.isShutdown

instance : IsPreorder World World.Abreast where
  refl _ := rfl
  trans _ _ _ h h' := h'.trans h

/-- Once shutdown has begun, the settings are in force. -/
def World.IsPrepared (w : World) : Prop := w.isShutdown = true → ∃ s, w.settings = some s

/-- Shutdown has not begun without settings in force. -/
def World.Prepares (w w' : World) : Prop := w.IsPrepared → w'.IsPrepared

instance : IsPreorder World World.Prepares where
  refl _ h := h
  trans _ _ _ h h' hw := h' (h hw)

theorem World.Later.prepares {w w' : World} (h : w.Later w') (hw : w.Abreast w') :
    w.Prepares w' := fun hp hd =>
  (hp (hw ▸ hd)).imp fun s hs => h.settings s hs

namespace Act

variable {α : Type} {ph : Phase} {k : Known} {w : World}

theorem abreast_of_quiet {x : Act α} (h : Respects World.Quiet x w) : Respects World.Abreast x w :=
  respects_mono h fun _ hq => hq.isShutdown

theorem abreast_install (c : Settings) : Respects World.Abreast (install c) w := by
  refine respects_get_bind ?_
  split
  · exact respects_pure _
  · exact fun _ => rfl

/-- An act under supervision does not begin shutdown. -/
theorem Supervised.abreast {x : Act α} (h : Supervised ph k x) (w : World) :
    Respects World.Abreast x w := by
  induction h generalizing w with
  | pure a => exact respects_pure a
  | bind _ _ ihx ihf => exact respects_bind (ihx w) fun a w₁ _ => ihf a w₁
  | refuse m => exact respects_refuse m
  | look view => exact fun _ => refl_of World.Abreast w
  | entity x _ ih => exact respects_entity_bind fun n _ _ => ih n.entity w
  | running => exact abreast_of_quiet respects_requireRunning
  | check failure => exact abreast_of_quiet (respects_check failure)
  | raise x =>
    refine respects_entity_bind fun n _ _ => ?_
    cases n.entity.count? with
    | none => exact respects_refuse _
    | some c =>
      rw [ofOption_some_bind]
      refine respects_bind (respects_modify rfl) fun _ _ _ => ?_
      refine respects_bind (respects_modify rfl) fun _ _ _ => ?_
      split
      · exact respects_abort
      · exact respects_pure _
  | expire x =>
    exact respects_bind (respects_modify rfl) fun _ _ _ => abreast_of_quiet respects_requireRunning
  | create name _ => exact fun _ => rfl
  | introduce name _ =>
    exact respects_bind (abreast_of_quiet respects_requireRunning) fun _ _ _ => fun _ => rfl
  | change x f =>
    refine respects_entity_bind fun n _ _ => ?_
    cases n.entity.struct? with
    | none => exact respects_refuse _
    | some t => exact respects_modify rfl
  | vacate _ v _ ih => exact respects_bind (respects_modify rfl) fun _ w₁ _ => ih w₁
  | contained _ ih => exact respects_contained (ih w)
  | onUnwind _ _ _ ihx ihc => exact respects_onUnwind (ihx w) fun w₁ _ => ihc w₁
  | _ => exact respects_modify rfl

/-- Whoever signals the start of shutdown has brought the settings into force. -/
theorem respects_signalShutdown_prepared : Respects World.Prepares signalShutdown w := by
  intro phase
  obtain ⟨w₁, happly, hconsults⟩ := settings_apply phase w
  rw [signalShutdown, bind_apply, happly]
  have hrest : Respects World.Later
      (if w.inForce.shutdownChecks then do
        let before := (← get).isShutdown
        modify fun w => { w with isShutdown := true }
        require (!before) .shutdownTwice
        emit .shutdownArmed
      else pure ()) w₁ := by
    split
    · refine respects_get_bind (respects_bind (respects_modify ?_) fun _ _ _ => ?_)
      · exact ⟨rfl, fun _ h => h, fun _ => rfl⟩
      · refine respects_bind (respects_mono (respects_require _ _) fun _ hq => hq.later) ?_
        exact fun _ _ _ => respects_modify ⟨rfl, fun _ h => h, fun h => h⟩
    · exact respects_pure _
  exact fun _ _ => ⟨_, (hrest phase).settings _ hconsults.settings⟩

end Act

namespace Session

open Act

variable {s : State} {x : Step} {out : Ledger} {slots : Slots} {w w' : World} {p : Plan}

/-- Whatever a step does, it does not begin shutdown before the settings are in force. -/
theorem Step.prepares (h : x.plan slots = .ok p) : Respects World.Prepares p.act w := by
  cases hx : x.isApart with
  | false =>
    intro phase
    have hsupervised : Supervised .normal (fun _ => none) p.act := Step.supervised h hx
    have hlater := (Step.onward (w := w) h phase).later
    exact hlater.prepares (hsupervised.abreast w phase)
  | true =>
    cases x with
    | process step =>
      cases h
      refine respects_map ?_
      cases step with
      | shutDown =>
        refine respects_silently (respects_contained (respects_bind ?_ fun _ _ _ => ?_))
        · exact respects_modify fun h => h
        · exact respects_signalShutdown_prepared
      | signalShutdown => exact respects_silently respects_signalShutdown_prepared
      | hasShutDown =>
        exact respects_asFlag (respects_map respects_get)
      | currentSettings =>
        refine respects_bind (respects_mono respects_settings fun _ hq => ?_) fun _ _ _ => ?_
        · exact hq.later.prepares hq.isShutdown
        · exact respects_pure _
      | install d =>
        refine respects_bind (fun phase => ?_) fun r _ _ => ?_
        · exact (onward_install d.build phase).later.prepares (abreast_install d.build phase)
        · rcases r with e | ⟨⟩ <;> exact respects_pure _
      | _ => cases hx
    | _ => cases hx

theorem State.prepares_step (s : State) (x : Step) (h : s.world.IsPrepared) :
    (s.step x).2.world.IsPrepared := by
  have hbegun : s.begun.IsPrepared := h
  rcases s.step_world x with (hworld | hworld) | ⟨p, hp, -, hworld⟩ <;> rw [hworld]
  · exact h
  · exact hbegun
  · exact Step.prepares hp .normal hbegun

/-! ## The balance after a check has unwound -/

/-- Where the check of the start of shutdown has unwound it would have done so before the step,
unless it is the step that begins shutdown. -/
theorem Step.isClosed_of_disturbed {e : Failure} (h : x.plan slots = .ok p)
    (hx : ∀ step, x ≠ .process step) (hw : w.IsPrepared)
    (hact : p.act .normal w = (.unwound e, w')) (hd : World.Disturbed e w') : w.IsClosed := by
  have hapart : x.isApart = false := by
    cases x with
    | process step => exact absurd rfl (hx step)
    | _ => rfl
  have hsupervised : Supervised .normal (fun _ => none) p.act := Step.supervised h hapart
  have habreast := hsupervised.abreast w .normal
  have honward := Step.onward (w := w) h .normal
  rw [hact] at habreast honward
  obtain ⟨-, hbegun, s, hs, hchecks⟩ := hd
  obtain ⟨t, ht, hfatal⟩ := ends_of_unwound (Step.ends_fatal h w) hact
  have hbefore : w.isShutdown = true := habreast.symm.trans hbegun
  obtain ⟨r, hr⟩ := hw hbefore
  have hlater := honward.later.settings r hr
  cases hlater.symm.trans hs
  cases hlater.symm.trans ht
  exact ⟨⟨hbefore, _, hr, hchecks⟩, _, hr, hfatal⟩

theorem State.severs_begun {y : Id} : State.Severs ⟨s.begun, s.slots⟩ x y ↔ s.Severs x y := by
  cases x with
  | shared step => cases step <;> exact Iff.rfl
  | _ => exact Iff.rfl

/-- Of references to objects those in slots are left, less what was given up. -/
theorem Balanced.outside_turned {δ : Id → Int} {z : Id} (h : Balanced s out)
    (ht : s.begun.Turns w' δ) (hz : w'.store.Accountable z)
    (hr : ¬ w'.store.HasRole z .sharedStructure) :
    w'.store.outside z = s.slots.held z + δ z := by
  have hafter : w'.store.outside z = s.world.store.outside z + δ z := ht.outside z hz
  have hbefore := h.outside z (ht.continues.accountable hz)
  have hnone : out z = 0 := by
    by_contra hne
    exact hr (ht.continues.hasRole (h.entered z hne))
  omega

/-- What a plan that unwinds has given up is what it used up, and the references to structures are
as they are. -/
theorem Balanced.retreat (h : Balanced s out) (hf : s.begun.Forgoes w' (p.uses s.slots)) :
    ∃ out', Balanced ⟨w', State.remaining s.slots p⟩ out' := by
  classical
  obtain ⟨δ, hturns, hδ⟩ := hf
  refine ⟨fun z => if w'.store.HasRole z .sharedStructure then
    w'.store.outside z - (State.remaining s.slots p).held z else 0, hturns.sound,
    h.named.remaining p, (h.fit.mono hturns.continues).remaining p, fun z hz => ?_,
    fun z hz => ?_⟩
  · show w'.store.outside z = (State.remaining s.slots p).held z + _
    split
    · omega
    · rename_i hrole
      have houtside := h.outside_turned hturns hz hrole
      have hheld := Slots.held_remaining h.named p z
      rw [hδ z hrole] at houtside
      omega
  · by_contra hrole
    exact hz (if_neg hrole)

/-- A step that proceeds and severs no wrapper from its object. -/
def State.Unsevered (s : State) (x : Step) : Prop := s.Proceeds x ∧ ∀ y, ¬ s.Severs x y

/-- A step that proceeds is undisturbed, unless the check of the start of shutdown unwinds in it. -/
theorem State.Proceeds.undisturbed_or (h : s.Proceeds x) :
    s.Undisturbed x ∨ ∃ p e w', x.plan s.slots = .ok p ∧
      p.act .normal s.begun = (.unwound e, w') ∧ World.Disturbed e w' ∧
      (s.step x).2 = ⟨w', State.remaining s.slots p⟩ := by
  obtain ⟨p, hp, -, hcases⟩ := State.proceeds_cases h
  rcases hcases with ⟨value, slot, w', -, houtcome, -⟩ | ⟨e, w', hact, houtcome, hstep⟩
  · refine Or.inl ⟨h, fun e he => ?_⟩
    rw [houtcome] at he
    cases he
  · by_cases hd : World.Disturbed e w'
    · exact Or.inr ⟨p, e, w', hp, hact, hd, hstep⟩
    · refine Or.inl ⟨h, fun e' he => ?_⟩
      rw [houtcome] at he
      cases he
      rwa [hstep]

/-- A step that severs no wrapper keeps the balance, whatever check has unwound. -/
theorem Balanced.unsevered (h : Balanced s out) (hw : s.world.IsPrepared) (hx : s.Unsevered x) :
    ∃ out', Balanced (s.step x).2 out' := by
  obtain ⟨hproceeds, hsevers⟩ := hx
  rcases hproceeds.undisturbed_or with hundisturbed | ⟨p, e, w', hp, hact, hd, hstep⟩
  · exact ⟨_, h.step hundisturbed⟩
  · rw [hstep]
    have hclosed (hprocess : ∀ step, x ≠ .process step) : s.begun.IsClosed :=
      Step.isClosed_of_disturbed hp hprocess hw hact hd
    have hretreats : p.Retreats s.slots s.begun :=
      Step.retreats hp hclosed h.sound h.fit fun y hy => hsevers y (State.severs_begun.mp hy)
    exact h.retreat (hretreats e w' hact)

/-- Every state that sessions reach without severing a wrapper is in balance. -/
theorem Reachable.exists_balanced (h : Reachable State.Unsevered s out) :
    s.world.IsPrepared ∧ ∃ out', Balanced s out' := by
  induction h with
  | initial e c => exact ⟨nofun, _, balanced_initial e c⟩
  | @step s out x _ hx ih =>
    obtain ⟨hw, out', hbalanced⟩ := ih
    exact ⟨s.prepares_step x hw, hbalanced.unsevered hw hx⟩

/-! ## The law -/

theorem Balanced.backs {y : Id} {name : String} {v : SharedWrapper} (h : Balanced s out)
    (hy : s.world.store.get? y = some ⟨name, .sharedWrapper v, true⟩) : s.world.store.Backs v := by
  have hr : s.world.store.HasRole v.object .sharedObject := (h.sound.linked y _ _ hy rfl).2
  have houtside := h.outside v.object hr.accountable
  rw [h.out_eq_zero hr] at houtside
  exact h.sound.backs hy (by omega)

/-- A class looks at the wrapper first, which it has made. -/
theorem severed_of_recognised {c : SharedClass} {y : Id} {e : Failure} (hc : w.IsClosed)
    (hs : w.store.Sound) (htag : w.store.wrapperTag? y = some c.tag) (hlast : w.store.HoldsLast y)
    (hact : (Plan.answering (do
      if ← recognises c.tag y then asTruth (release y) else pure .null)).act .normal w =
        (.unwound e, w')) : ∃ v, w.Severed w' y v := by
  have hunwound := unwound_of_bind (fun _ _ => ends_pure trivial) hact
  have hlooked := hunwound
  rw [recognises, wrapperTag, bind_assoc, bind_assoc] at hlooked
  obtain ⟨n, hn, hlive, -⟩ := unwound_of_entity_bind hlooked
  rw [Store.wrapperTag?_eq hn] at htag
  obtain ⟨w₁, happly, hq⟩ := yields_recognises hn hlive htag .normal
  rw [bind_apply, happly] at hunwound
  obtain ⟨v, hsevered⟩ := severed_of_holdsLast (hq.later.isClosed hc) (hq.store ▸ hs)
    (hq.store ▸ hlast) (unwound_of_bind (fun _ _ => ends_pure trivial) hunwound)
  exact ⟨v, hq.trans_severed hs hsevered⟩

theorem State.Severs.severed {y : Id} {e : Failure} (hx : s.Severs x y)
    (h : x.plan s.slots = .ok p) (hs : s.world.store.Sound)
    (hact : p.act .normal s.begun = (.unwound e, w')) : ∃ v, s.begun.Severed w' y v := by
  cases x with
  | shared step =>
    cases step with
    | releaseWrapper c source =>
      obtain ⟨hc, hy, hlast⟩ := hx
      cases SharedStep.planned (x := .releaseWrapper c source) h with
      | null _ _ _ hnull => cases hnull
      | releaseWrapper _ _ y' hy' =>
        unfold State.wrapperAt at hy
        rw [Slots.structAt_of_argument hy', Slot.struct?, Option.filter_some] at hy
        split at hy
        · rename_i htag
          cases hy
          exact severed_of_recognised (w := s.begun) hc hs (of_decide_eq_true htag) hlast hact
        · cases hy
    | _ => exact hx.elim
  | _ => exact hx.elim

section Severed

variable {z : Id} {u : SharedWrapper} (hsevered : s.begun.Severed w' z u)
include hsevered

theorem not_backs_of_severed : ¬ w'.store.Backs u := by
  rintro ⟨n, -, hn, hlive, -⟩
  obtain ⟨m, hm, hdead⟩ := hsevered.gone
  cases hm.symm.trans hn
  exact absurd (hdead.symm.trans hlive) Bool.noConfusion

/-- The wrapper that is severed was the only one of its object, so all others keep theirs. -/
theorem Balanced.backs_of_severed {y : Id} {name : String} {v : SharedWrapper}
    (h : Balanced s out) (hy : w'.store.get? y = some ⟨name, .sharedWrapper v, true⟩)
    (hne : z ≠ y) : w'.store.Backs v := by
  obtain ⟨⟨name', hz⟩, hgone, hturns⟩ := hsevered
  have houtside {o : Id} (hr : w'.store.HasRole o .sharedObject) :
      w'.store.outside o = s.slots.held o + credit (some u.object) (-1) o :=
    h.outside_turned hturns hr.accountable fun hr' => absurd (hr.unique hr') (by decide)
  have hobject : v.object ≠ u.object := by
    intro heq
    have hlt := hturns.sound.outside_lt hz hy hne heq.symm hgone
    rw [houtside (hturns.sound.linked z _ u.object hz rfl).2, credit_self] at hlt
    omega
  refine hturns.sound.backs hy ?_
  rw [houtside (hturns.sound.linked y _ v.object hy rfl).2, credit_of_ne hobject]
  omega

end Severed

/-- After a step that unwinds a live wrapper refers to a live object, which has at least as many
references as the wrapper. The only exception is a wrapper of which a reference was given up with
the last one to the proxy in it, after the start of shutdown. -/
theorem wrappers_backed {e : Failure} (h : Reachable State.Unsevered s out)
    (hx : (s.step x).1.outcome = .unwound e) (y : Id) (name : String) (v : SharedWrapper)
    (hy : (s.step x).2.world.store.get? y = some ⟨name, .sharedWrapper v, true⟩) :
    (s.step x).2.world.store.Backs v ↔ ¬ s.Severs x y := by
  obtain ⟨hw, out', hbalanced⟩ := h.exists_balanced
  have hproceeds : s.Proceeds x := by
    rw [State.Proceeds, hx]
    trivial
  by_cases hall : ∀ z, ¬ s.Severs x z
  · obtain ⟨out'', hafter⟩ := hbalanced.unsevered hw ⟨hproceeds, hall⟩
    exact iff_of_true (hafter.backs hy) (hall y)
  · obtain ⟨z, hz⟩ := not_forall_not.mp hall
    obtain ⟨p, hp, -, hcases⟩ := State.proceeds_cases hproceeds
    rcases hcases with ⟨value, slot, w', -, hdone, -⟩ | ⟨e', w', hact, -, hstep⟩
    · rw [hx] at hdone
      cases hdone
    · obtain ⟨u, hsevered⟩ := hz.severed hp hbalanced.sound hact
      rw [hstep] at hy ⊢
      constructor
      · intro hbacks hy'
        obtain ⟨v', hsevered'⟩ := hy'.severed hp hbalanced.sound hact
        obtain ⟨name', hwrapper⟩ := hsevered'.wrapper
        cases hy.symm.trans hwrapper
        exact not_backs_of_severed hsevered' hbacks
      · intro hnot
        exact hbalanced.backs_of_severed hsevered hy fun heq => hnot (heq ▸ hz)

/-- A wrapper of a proxy and a wrapper of an object, held when shutdown begins. -/
def wrappersAtShutdown : List Step :=
  [.create (.sharedFar ⟨3, 4, 1⟩ none []) "f", .shared (.receive .child (some "f") "p"),
    .shared (.wrap .child (some "p") "w"), .create (.sharedObject ⟨.client 7, none⟩) "a",
    .shared (.wrap .client (some "a") "v"), .process .shutDown]

/-- The wrapper of the proxy loses it, and the other one keeps its object. -/
theorem wrappers_backed_severed :
    let s := (State.initial {} (some ⟨true, true⟩)).after wrappersAtShutdown
    let release : Step := .shared (.releaseWrapper .child "w")
    let st := (s.step release).2.world.store
    (s.step release).1.outcome = .unwound .heldAtShutdown ∧
      (∃ v, st.get? 2 = some ⟨"w", .sharedWrapper v, true⟩ ∧ ¬ st.Backs v) ∧
      ∃ v, st.get? 4 = some ⟨"v", .sharedWrapper v, true⟩ ∧ st.Backs v := by
  intro s release st
  have hall : (State.initial {} (some ⟨true, true⟩)).All State.Unsevered wrappersAtShutdown := by
    refine ⟨⟨?_, fun _ => id⟩, ⟨?_, fun _ => id⟩, ⟨?_, fun _ => id⟩, ⟨?_, fun _ => id⟩,
      ⟨?_, fun _ => id⟩, ⟨?_, fun _ => id⟩, trivial⟩ <;> exact (State.undisturbed_of_isDone rfl).1
  have hreachable := (Reachable.initial {} (some ⟨true, true⟩)).along hall
  have houtcome : (s.step release).1.outcome = .unwound .heldAtShutdown := rfl
  have hproxy := wrappers_backed hreachable houtcome 2 _ _ rfl
  have hobject := wrappers_backed hreachable houtcome 4 _ _ rfl
  have hsevers : s.Severs release 2 :=
    ⟨⟨⟨rfl, _, rfl, rfl⟩, _, rfl, rfl⟩, rfl, _, _, _, _, rfl, rfl, rfl, rfl, rfl⟩
  refine ⟨houtcome, ⟨_, rfl, fun hbacks => hproxy.mp hbacks hsevers⟩, _, rfl, hobject.mpr ?_⟩
  rintro ⟨-, heq, -⟩
  cases heq

/-- A step that unwinds may leave a live wrapper behind without its object: the check in the
destruction of the proxy unwinds before the wrapper has given up its own reference. -/
theorem not_wrappers_backed :
    ¬ ∀ s out x e y name v, Reachable State.Proceeds s out → (s.step x).1.outcome = .unwound e →
      (s.step x).2.world.store.get? y = some ⟨name, .sharedWrapper v, true⟩ →
      (s.step x).2.world.store.Backs v := by
  intro h
  have hreachable := (Reachable.initial {} (some ⟨true, true⟩)).after wrappersAtShutdown rfl
  obtain ⟨n, -, hn, hlive, -⟩ := h _ _ (.shared (.releaseWrapper .child "w")) _ 2 _ _
    hreachable.proceeds rfl rfl
  cases hn
  cases hlive

end Session

end ObjectBoundary
