import ObjectBoundary.Proofs.Acts.Reports
import ObjectBoundary.Proofs.Acts.Calls

/-!
# Acts that unwind

What an act that unwinds on its own has done to the references until then. Where the check of the
start of shutdown unwinds, most acts come to nothing, but a reference that was to be given up is
given up. Only a reference to a wrapper may be given up in part: with the last reference to the
proxy in it the proxy is destroyed, and the wrapper stays.

* `World.Forgoes`: references to objects were given up, and no others.
* `Act.Retreats`: what an act has given up if it unwinds.
* `Act.Stops`: an act that is not done.
* `Store.HoldsLast`: a wrapper with the last reference to a proxy.
* `World.Severed`, `severed_of_holdsLast`: what becomes of it.
-/

namespace ObjectBoundary

/-! ## References that were given up -/

/-- The references to objects that were given up, one by one. Nothing is said of references to
structures. -/
def World.Forgoes (w w' : World) (u : Id → Int) : Prop :=
  ∃ δ, w.Turns w' δ ∧ ∀ z, ¬ w'.store.HasRole z .sharedStructure → δ z = -u z

namespace World

variable {w w₁ w' : World} {u δ : Id → Int} {x : Id}

theorem Turns.forgoes (h : w.Turns w' (-u)) : w.Forgoes w' u := ⟨_, h, fun _ _ => rfl⟩

theorem Still.forgoes (h : w.Still w') (hs : w.store.Sound) : w.Forgoes w' 0 :=
  (h.turns hs).of_eq neg_zero.symm |>.forgoes

theorem Quiet.forgoes (h : w.Quiet w') (hs : w.store.Sound) : w.Forgoes w' 0 := h.still.forgoes hs

theorem Descends.forgoes (h : w.Descends w' (credit (some x) (-1))) (hs : w.store.Sound) :
    w.Forgoes w' (credit (some x) 1) :=
  (h.turns hs).of_eq (credit_neg (some x) 1) |>.forgoes

theorem GivesUp.forgoes (h : w.GivesUp w' x) (hs : w.store.Sound) :
    w.Forgoes w' (credit (some x) 1) :=
  (h.turns hs).of_eq (credit_neg (some x) 1) |>.forgoes

/-- Whoever gives up a reference to a structure gives up none to an object. -/
theorem Descends.forgoes_structure (h : w.Descends w' (credit (some x) (-1))) (hs : w.store.Sound)
    (hr : w.store.HasRole x .sharedStructure) : w.Forgoes w' 0 := by
  refine ⟨_, h.turns hs, fun z hz => ?_⟩
  have hne : z ≠ x := by
    rintro rfl
    exact hz (h.continues.hasRole hr)
  rw [credit_of_ne hne]
  rfl

theorem Quiet.trans_forgoes (hq : w.Quiet w₁) (hs : w.store.Sound) (h : w₁.Forgoes w' u) :
    w.Forgoes w' u := by
  obtain ⟨δ, hturns, hδ⟩ := h
  exact ⟨δ, hq.trans_turns hs hturns, hδ⟩

end World

namespace Act

variable {α β : Type} {x : Act α} {f : α → Act β} {w : World} {u : Id → Int}

/-! ## Acts that are not done -/

/-- On its own the act is not done. -/
def Stops (x : Act α) (w : World) : Prop := ∀ a w', x .normal w ≠ (.done a, w')

theorem Stops.bind (h : Stops x w) (f : α → Act β) : Stops (x >>= f) w := by
  intro b w'
  rw [bind_apply]
  rcases hx : x .normal w with ⟨a | _ | _ | _, w₁⟩
  · exact absurd hx (h a w₁)
  all_goals exact fun heq => by cases heq

theorem stops_bind (h : ∀ a w', x .normal w = (.done a, w') → Stops (f a) w') :
    Stops (x >>= f) w := by
  intro b w'
  rw [bind_apply]
  rcases hx : x .normal w with ⟨a | _ | _ | _, w₁⟩
  · exact h a w₁ hx b w'
  all_goals exact fun heq => by cases heq

/-- An act that is not done leaves nothing to what comes after it. -/
theorem Stops.unwound {e : Failure} {w' : World} (h : Stops x w)
    (hx : (x >>= f) .normal w = (.unwound e, w')) : x .normal w = (.unwound e, w') := by
  rw [bind_apply] at hx
  rcases hact : x .normal w with ⟨a | e' | _ | _, w₁⟩
  · exact absurd hact (h a w₁)
  all_goals
    rw [hact] at hx
    cases hx
  rfl

theorem Stops.onUnwind (h : Stops x w) (c : Act Unit) : Stops (onUnwind x c) w := by
  intro a w'
  unfold Act.onUnwind
  rcases hx : x .normal w with ⟨a' | e | _ | _, w₁⟩
  · exact absurd hx (h a' w₁)
  · dsimp only
    unfold cleanUp
    rcases c .unwinding w₁ with ⟨_ | _ | _ | _, w₂⟩ <;> exact fun heq => by cases heq
  all_goals exact fun heq => by cases heq

/-- If what comes after an act never unwinds, it was the act that did. -/
theorem unwound_of_bind {e : Failure} {w' : World}
    (hf : ∀ a w', Ends (f a) w' (fun _ _ => True) fun _ _ => False)
    (h : (x >>= f) .normal w = (.unwound e, w')) : x .normal w = (.unwound e, w') := by
  rw [bind_apply] at h
  rcases hact : x .normal w with ⟨a | e' | _ | _, w₁⟩
  · rw [hact] at h
    exact (ends_of_unwound (hf a w₁) h).elim
  all_goals
    rw [hact] at h
    cases h
  rfl

/-- What unwinds after it has looked for an entity has found one that exists. -/
theorem unwound_of_entity_bind {y : Id} {f : Entity → Act β} {e : Failure} {w' : World}
    (h : (entity y >>= f) .normal w = (.unwound e, w')) :
    ∃ n, w.store.get? y = some n ∧ n.live = true ∧ f n.entity .normal w = (.unwound e, w') := by
  cases hn : w.store.get? y with
  | none =>
    simp only [entity, bind_apply, get, hn] at h
    cases h
  | some n =>
    cases hlive : n.live with
    | false =>
      simp only [entity, bind_apply, get, hn, hlive] at h
      cases h
    | true =>
      rw [bind_apply, entity_apply hn hlive] at h
      exact ⟨n, rfl, hlive, h⟩

/-- What unwinds in the end has been cleaned up after. -/
theorem unwound_of_onUnwind {c : Act Unit} {e : Failure} {w' : World}
    (h : onUnwind x c .normal w = (.unwound e, w')) :
    ∃ w₁, x .normal w = (.unwound e, w₁) ∧ c .unwinding w₁ = (.done (), w') := by
  unfold onUnwind at h
  rcases hx : x .normal w with ⟨a | e' | _ | _, w₁⟩
  · rw [hx] at h
    cases h
  · rw [hx] at h
    dsimp only at h
    unfold cleanUp at h
    rcases hc : c .unwinding w₁ with ⟨_ | _ | _ | _, w₂⟩
    all_goals
      rw [hc] at h
      cases h
    exact ⟨w₁, rfl, hc⟩
  all_goals
    rw [hx] at h
    cases h

theorem stops_entity_bind {y : Id} {f : Entity → Act β}
    (h : ∀ n, w.store.get? y = some n → n.live = true → Stops (f n.entity) w) :
    Stops (entity y >>= f) w := by
  refine stops_bind fun e w' he => ?_
  have hentity : Ends (entity y) w (fun e w' => w' = w ∧ Stops (f e) w) fun _ _ => True :=
    ends_entity fun n hn hlive => ⟨rfl, h n hn hlive⟩
  obtain ⟨rfl, hstops⟩ := ends_of_done hentity he
  exact hstops

/-- Where the check of the start of shutdown unwinds, nothing that it is asked for is done. -/
theorem stops_requireRunning (hc : w.IsClosed) : Stops requireRunning w := by
  intro a w'
  obtain ⟨s, hs, happly⟩ := requireRunning_apply hc.1 .normal
  obtain ⟨t, ht, hfatal⟩ := hc.2
  cases hs.symm.trans ht
  rw [happly, hfatal]
  exact fun heq => by cases heq

theorem quiet_of_requireRunning {e : Failure} {w' : World}
    (h : requireRunning .normal w = (.unwound e, w')) : w.Quiet w' := by
  have hquiet := respects_requireRunning (w := w) .normal
  rwa [h] at hquiet

/-! ## Acts that unwind -/

/-- If the act unwinds on its own, it has given up these references to objects and no others. -/
def Retreats (x : Act α) (w : World) (u : Id → Int) : Prop :=
  ∀ e w', x .normal w = (.unwound e, w') → w.Forgoes w' u

theorem retreats_of_ends {P : α → World → Prop} (h : Ends x w P fun _ w' => w.Forgoes w' u) :
    Retreats x w u := fun _ _ hx => ends_of_unwound h hx

theorem retreats_of_still (h : Respects World.Still x w) (hs : w.store.Sound) : Retreats x w 0 :=
  retreats_of_ends (ends_mono (ends_of_respects h) (fun _ _ h => h) fun _ _ h => h.forgoes hs)

/-- What never unwinds. -/
theorem retreats_of_not_unwound (h : Ends x w (fun _ _ => True) fun _ _ => False) :
    Retreats x w u := retreats_of_ends (ends_mono h (fun _ _ h => h) fun _ _ h => h.elim)

theorem retreats_bind {P : α → World → Prop} (hx : Ends x w P fun _ w' => w.Forgoes w' u)
    (hf : ∀ a w₁, P a w₁ → ∀ e w', f a .normal w₁ = (.unwound e, w') → w.Forgoes w' u) :
    Retreats (x >>= f) w u := by
  intro e w' h
  rw [bind_apply] at h
  rcases hact : x .normal w with ⟨a | e' | _ | _, w₁⟩
  · rw [hact] at h
    exact hf a w₁ (ends_of_done hx hact) e w' h
  · rw [hact] at h
    cases h
    exact ends_of_unwound hx hact
  all_goals
    rw [hact] at h
    cases h

/-- What only looks before it goes on. -/
theorem retreats_quiet_bind (hs : w.store.Sound) (hx : Respects World.Quiet x w)
    (hf : ∀ a w₁, w.Quiet w₁ → Retreats (f a) w₁ 0) : Retreats (x >>= f) w 0 := by
  have hends : Ends x w (fun _ w₁ => w.Quiet w₁) fun _ w₁ => w.Forgoes w₁ 0 :=
    ends_mono (ends_of_respects hx) (fun _ _ hq => hq) fun _ _ hq => World.Quiet.forgoes hq hs
  exact retreats_bind hends fun a w₁ hq e w' hact => hq.trans_forgoes hs (hf a w₁ hq e w' hact)

/-- What comes after an act does not matter if it never unwinds. -/
theorem Retreats.bind (h : Retreats x w u)
    (hf : ∀ a w', Ends (f a) w' (fun _ _ => True) fun _ _ => False) : Retreats (x >>= f) w u :=
  fun e w' hx => h e w' (unwound_of_bind hf hx)

/-- What begins with the check of the start of shutdown. -/
theorem retreats_running_bind {f : Unit → Act β} (hc : w.IsClosed) (hs : w.store.Sound) :
    Retreats (requireRunning >>= f) w 0 := fun _ _ hx =>
  (quiet_of_requireRunning ((stops_requireRunning hc).unwound hx)).forgoes hs

/-- A handle that is given up after the check has failed. -/
theorem givesUp_of_onUnwind {y : Act α} {o : Id} {e : Failure} {w' : World} (hs : w.store.Sound)
    (hy : ∀ e w₁, y .normal w = (.unwound e, w₁) → w.Quiet w₁)
    (h : onUnwind y (drop o) .normal w = (.unwound e, w')) : w.GivesUp w' o := by
  obtain ⟨w₁, hact, hdrop⟩ := unwound_of_onUnwind h
  have hq := hy e w₁ hact
  exact hq.trans_givesUp (ends_of_done (ends_drop (hq.store ▸ hs) o) hdrop).givesUp

end Act

/-! ## References that were given up in part -/

/-- A wrapper in which there is a proxy with a single reference. -/
def Store.HoldsLast (st : Store) (y : Id) : Prop :=
  ∃ n v m p, st.get? y = some n ∧ n.entity = .sharedWrapper v ∧ st.get? v.object = some m ∧
    m.entity = .sharedProxy p ∧ p.count.isOne = true

/-- A live wrapper was left behind without its object. The last reference to the object is all that
was given up. -/
structure World.Severed (w w' : World) (y : Id) (v : SharedWrapper) : Prop where
  wrapper : ∃ name, w'.store.get? y = some ⟨name, .sharedWrapper v, true⟩
  gone : ∃ m, w'.store.get? v.object = some m ∧ m.live = false
  turns : w.Turns w' (credit (some v.object) (-1))

theorem World.Quiet.trans_severed {w w₁ w' : World} {y : Id} {v : SharedWrapper}
    (hq : w.Quiet w₁) (hs : w.store.Sound) (h : w₁.Severed w' y v) : w.Severed w' y v :=
  ⟨h.wrapper, h.gone, hq.trans_turns hs h.turns⟩

/-- An object whose release was cut short is a proxy that has gone with its last reference. -/
theorem World.CutShort.object {w w' : World} {o : Id} (h : w.CutShort w' (w.store.chain o))
    (hr : w.store.HasRole o .sharedObject) :
    (∃ m p, w.store.get? o = some m ∧ m.entity = .sharedProxy p ∧ p.count.isOne = true) ∧
      w.Released w' (w.below o) := by
  obtain ⟨m, hm, hrole⟩ := hr
  obtain ⟨n, hn, -, ⟨hback, hlast, hreleased⟩ | ⟨⟨v, hv⟩, -⟩⟩ := h
  · cases hm.symm.trans hn
    refine ⟨?_, hreleased⟩
    obtain ⟨name, e, live⟩ := m
    cases e with
    | sharedProxy p => exact ⟨_, p, hm, rfl, hlast⟩
    | sharedWrapper v => cases hrole
    | _ => cases hback
  · cases hm.symm.trans hn
    rw [hv] at hrole
    cases hrole

namespace Act

variable {w : World} {o y : Id} {n : Node} {v : SharedWrapper}

theorem retreats_release_object (hs : w.store.Sound) (hr : w.store.HasRole o .sharedObject) :
    Retreats (release o) w (credit (some o) 1) :=
  retreats_of_ends (ends_mono (ends_release_cutShort hs o) (fun _ _ h => h)
    fun _ _ hu => ((hu.2.object hr).2.descends hs).forgoes hs)

/-- A reference to a wrapper is given up as a whole, unless the wrapper holds the last one to its
object. -/
theorem retreats_release_wrapper {t : Tag} (hs : w.store.Sound)
    (ht : w.store.wrapperTag? y = some t) (hlast : ¬ w.store.HoldsLast y) :
    Retreats (release y) w 0 := by
  refine retreats_of_ends (ends_mono (ends_release_cutShort hs y) (fun _ _ h => h) ?_)
  intro _ w' hu
  obtain ⟨-, hcut⟩ := hu
  rw [Store.chain_eq_cons hs.earlier] at hcut
  obtain ⟨n, hn, -, ⟨-, -, hreleased⟩ | ⟨⟨v, hv⟩, hcut⟩⟩ := hcut
  · rw [← Store.chain_eq_cons hs.earlier] at hreleased
    have hr := hreleased.upheld.hasRole (Store.mem_reach_chain _ _ y) ht
    exact (World.Released.descends hs hreleased).forgoes_structure hs hr
  · rw [Store.below?_eq_some hn, hv] at hcut
    have hobject := (hs.linked y n v.object hn (by rw [hv]; rfl)).2
    rw [hv] at hobject
    obtain ⟨⟨m, p, hm, hp, hone⟩, -⟩ := hcut.object hobject
    exact absurd ⟨n, v, m, p, hn, hv, hm, hp, hone⟩ hlast

/-- The last reference to a proxy cannot be given up where the check of the start of shutdown
unwinds. -/
theorem stops_releaseAlong {below : List Id} {p : SharedProxy} (hc : w.IsClosed)
    (hs : w.store.Sound) (hbelow : (o :: below).Nodup) (hn : w.store.get? o = some n)
    (hp : n.entity = .sharedProxy p) (hone : p.count.isOne = true) :
    Stops (releaseAlong (o :: below)) w := by
  obtain ⟨ho, hnodup⟩ := List.nodup_cons.mp hbelow
  refine stops_entity_bind fun m hm hlive => ?_
  cases hn.symm.trans hm
  obtain ⟨name, e, live⟩ := n
  cases hp
  have hreach : o ∉ w.store.reach Layout.release below := fun hmem =>
    ho (Store.reach_subset _ _ _ _ hmem)
  let pass : Act Unit := discard (through p.target Layout.release 0 (releaseAlong below))
  have hpass : Ends pass w _ fun _ _ => False := ends_discard (ends_pass hn hreach
    (ends_mono (ends_releaseAlong hnodup hs) (fun _ _ h => h.1) fun _ _ hu => hu) (.nil w))
  have hcomposed : Composed pass := composed_of_supervised fun _ _ =>
    supervised_discard (supervised_through (supervised_releaseAlong below))
  refine stops_bind fun _ w₁ h₁ => ?_
  obtain ⟨⟨-, ys, -, hys, hreleased⟩, honward⟩ :=
    ends_of_done (ends_and_respects hpass (hcomposed.onward w)) h₁
  have hn₁ := (hreleased.adjusted.get?_of_not_mem hys).trans hn
  have hclosed : w₁.IsClosed := honward.later.isClosed hc
  refine stops_bind fun last w₂ h₂ => ?_
  rw [lower_apply hn₁ hlive rfl ((hs.counted o _ hn).live_iff.mp hlive)] at h₂
  cases h₂
  rw [if_pos hone]
  refine stops_bind fun _ w₃ h₃ => ?_
  cases h₃
  refine Stops.bind (stops_requireRunning ?_) _
  exact hclosed

/-- A wrapper that holds the last reference to its object is severed from it. -/
theorem severed_of_holdsLast {e : Failure} {w' : World} (hc : w.IsClosed) (hs : w.store.Sound)
    (hlast : w.store.HoldsLast y) (h : release y .normal w = (.unwound e, w')) :
    ∃ v, w.Severed w' y v := by
  obtain ⟨n, v, m, p, hn, hv, hm, hp, hone⟩ := hlast
  obtain ⟨name, e, live⟩ := n
  cases hv
  have hchain := Store.chain_of_below hs.earlier hn (y := v.object) rfl
  obtain ⟨hlt, hrole⟩ := hs.linked y _ v.object hn rfl
  have hnodup := Store.chain_nodup hs.earlier v.object
  obtain ⟨below, hbelow⟩ : ∃ below, w.store.chain v.object = v.object :: below := ⟨_, rfl⟩
  change releaseAlong (w.store.chain y) .normal w = _ at h
  rw [hchain, releaseAlong] at h
  obtain ⟨n, hn', hlive, h⟩ := unwound_of_entity_bind h
  cases hn.symm.trans hn'
  change live = true at hlive
  subst hlive
  have hstops : Stops (discard (releaseAlong (w.store.chain v.object))) w := by
    rw [hbelow] at hnodup ⊢
    exact (stops_releaseAlong hc hs hnodup hm hp hone).bind _
  have hunwound := ends_of_unwound (ends_discard (ends_releaseAlong hnodup hs)) (hstops.unwound h)
  obtain ⟨-, hreleased⟩ := hunwound.2.object hrole
  have hreach : (w.below v.object).Nodup := Store.reach_nodup hnodup w.store Layout.release
  have hy := Store.not_mem_reach_chain hs.earlier hlt Layout.release
  refine ⟨v, ⟨name, (hreleased.adjusted.get?_of_not_mem hy).trans hn⟩, ⟨m.lowered, ?_, ?_⟩,
    (World.Released.descends hs hreleased).turns hs⟩
  · have hmem : v.object ∈ w.below v.object := List.mem_cons_self
    rw [hreleased.adjusted.store, Store.get?_modifyAll hreach, if_pos hmem, hm]
    rfl
  · have hisLast : m.entity.isLast = true := by rw [hp]; exact hone
    simp [Node.lowered, hisLast]

/-! ## Crossing the boundary -/

/-- A call through a function member never unwinds. -/
theorem ends_through_contained {s : Id} {position : Nat} {absent : α} {x : Act α} :
    Ends (through s position absent x) w (fun _ _ => True) fun _ _ => False :=
  ends_through (fun _ _ _ _ _ _ => ends_true) fun _ _ _ _ _ _ => trivial

/-- A direct call that unwinds has given nothing up. -/
theorem retreats_call {s : Id} {i : Nat} {r : Option Id} (hs : w.store.Sound) :
    Retreats (call s i r) w 0 := by
  refine retreats_of_ends (P := fun _ _ => True) (ends_entity_bind fun n hn hlive => ?_)
  cases ht : n.entity.struct? with
  | none => exact ends_refuse
  | some t =>
    have hquiet {x : Act Reply} (h : Respects World.Quiet x w) :
        Ends x w (fun _ _ => True) fun _ w' => w.Forgoes w' 0 :=
      ends_mono (ends_of_respects h) (fun _ _ _ => trivial) fun _ _ hq => hq.forgoes hs
    refine ends_ofOption_bind rfl ?_
    split
    · cases n.entity with
      | sharedWrapper v => exact ends_contained ends_true
      | ownedWrapper v => exact ends_contained ends_true
      | sharedFar f =>
        cases r with
        | none => exact ends_refuse
        | some x =>
          refine ends_ofOption_bind rfl (ends_entity_bind fun m hm _ => ?_)
          obtain ⟨name, e, live⟩ := m
          cases e with
          | sharedFar f =>
            match i with
            | 0 => exact ends_bind (ends_retain hs.earlier x) fun _ _ _ => ends_pure trivial
            | 1 =>
              refine ends_bind (ends_mono (ends_release_cutShort hs x) (fun _ _ h => h)
                fun _ w' hu => ?_) fun _ _ _ => ends_pure trivial
              obtain ⟨-, k, hk, -, ⟨hback, -⟩ | ⟨⟨v, hv⟩, -⟩⟩ := hu
              · cases hm.symm.trans hk
                cases hback
              · cases hm.symm.trans hk
                cases hv
            | 2 | 3 => exact hquiet (respects_reply (respects_ask _ x))
            | index + 4 => exact hquiet (respects_reply (respects_farAnswer x _ _))
          | _ => exact ends_refuse
      | ownedFar f =>
        cases r with
        | none => exact ends_refuse
        | some x =>
          refine ends_ofOption_bind rfl (ends_entity_bind fun m hm _ => ?_)
          cases m.entity with
          | ownedFar f =>
            match i with
            | 0 =>
              refine ends_bind (ends_mono (ends_of_respects (respects_dispose x)) (fun _ _ h => h)
                fun _ _ h => h.forgoes hs) fun _ _ _ => ends_pure trivial
            | index + 1 => exact hquiet (respects_reply (respects_farAnswer x _ _))
          | _ => exact ends_refuse
      | _ => exact ends_refuse
    · exact ends_pure trivial

/-- Where the check of the start of shutdown unwinds, nothing is wrapped, and the handle goes. -/
theorem givesUp_of_wrap {c : SharedClass} {name : String} {e : Failure} {w' : World}
    (hc : w.IsClosed) (hs : w.store.Sound) (h : c.wrap name o .normal w = (.unwound e, w')) :
    w.GivesUp w' o := by
  have hstops := (stops_requireRunning hc).bind fun _ => do
    let v ← create name (.sharedWrapper ⟨c, o, c.newStruct, .zero⟩)
    retain v
    emit (.crossed .wrapped c.tag)
    pure v
  refine givesUp_of_onUnwind hs (fun e w₁ hy => ?_) ((hstops.onUnwind (drop o)).unwound h)
  exact quiet_of_requireRunning ((stops_requireRunning hc).unwound hy)

theorem retreats_wrap (c : SharedClass) (name : String) (hc : w.IsClosed) (hs : w.store.Sound) :
    Retreats (c.wrap name o) w (credit (some o) 1) :=
  fun _ _ h => (givesUp_of_wrap hc hs h).forgoes hs

/-- The structure of a proxy is not handed out either. -/
theorem givesUp_of_giveBack {c : ProxyClass} {e : Failure} {w' : World} (hc : w.IsClosed)
    (hs : w.store.Sound) (h : c.giveBack o .normal w = (.unwound e, w')) : w.GivesUp w' o :=
  givesUp_of_onUnwind hs (fun _ _ hy => quiet_of_requireRunning hy)
    (((stops_requireRunning hc).onUnwind (drop o)).unwound h)

theorem retreats_giveBack (c : ProxyClass) (hc : w.IsClosed) (hs : w.store.Sound) :
    Retreats (c.giveBack o) w (credit (some o) 1) :=
  fun _ _ h => (givesUp_of_giveBack hc hs h).forgoes hs

end Act

end ObjectBoundary
