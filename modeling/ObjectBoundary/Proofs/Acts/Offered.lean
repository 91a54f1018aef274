import ObjectBoundary.Proofs.Acts.Composed
import ObjectBoundary.Proofs.Acts.Looking
import ObjectBoundary.Proofs.References.Reach

/-!
# Functions that a structure offers

A proxy that is asked for a value calls the function member of its structure, once and on the
structure itself, if the member lies within the recorded size and is not null. Otherwise it calls
nothing and answers zero. Whether the structure has such a member at all it cannot tell.

* `Act.Agrees`: two acts that do the same in a world.
* `agrees_answer_proxy`, `agrees_call`: asking a proxy is calling the member of its structure.
* `Store.Offers`: a structure has a member that can be called.
* `World.CallsWithin`: which functions of the far side were called.
* `within_answer`: whoever asks for a value calls only what is offered.
-/

namespace ObjectBoundary

/-! ## Positions of members -/

/-- The position of a function of the interfaces in a structure with a certain role. -/
def Role.member (r : Role) (index : Nat) : Nat :=
  match r with
  | .sharedStructure => Layout.sharedFirst + index
  | _ => Layout.ownedFirst + index

namespace Entity

def isProxy : Entity → Bool
  | sharedProxy _ | ownedProxy _ => true
  | _ => false

/-- No object is a structure. -/
theorem struct?_eq_none {e : Entity} (h : e.role = .sharedObject ∨ e.role = .ownedObject) :
    e.struct? = none := by
  cases e <;> first | rfl | (rcases h with h | h <;> cases h)

/-- What a structure of the far side answers. -/
def answers? : Entity → Option FarAnswers
  | sharedFar f => some f.answers
  | ownedFar f => some f.answers
  | _ => none

end Entity

/-- The function of a structure that answers a question of the interfaces, by its name. -/
theorem Entity.Formed.position_member {e : Entity} {u : Structure} {a : FarAnswers} {index : Nat}
    {member : String} {r : Int32} (h : e.Formed) (ha : e.answers? = some a)
    (hu : e.struct? = some u) (hr : a.value? index = some (member, r)) :
    u.layout.position? member = some (e.role.member index) := by
  cases e with
  | sharedFar f =>
    cases hu
    rw [show f.struct.layout = Layout.sharedChild from h]
    match index with
    | 0 => cases hr; rfl
    | 1 => cases hr; rfl
    | _ + 2 => cases hr
  | ownedFar f =>
    cases hu
    rw [show f.struct.layout = Layout.ownedChild from h]
    match index with
    | 0 => cases hr; rfl
    | 1 => cases hr; rfl
    | _ + 2 => cases hr
  | _ => cases ha

theorem SharedClass.sharedFirst_lt_length (c : SharedClass) :
    Layout.sharedFirst < c.layout.names.length := by
  cases c with
  | table width isWidth =>
    have hwidth : ∀ w ∈ tableWidths, Layout.sharedFirst < (Layout.table w).names.length := by
      decide
    exact hwidth width isWidth
  | client | child | bare => exact of_decide_eq_true rfl

theorem OwnedClass.ownedFirst_lt_length (c : OwnedClass) :
    Layout.ownedFirst < c.layout.names.length := by
  cases c <;> exact of_decide_eq_true rfl

/-- Every structure has a member for the first function of its interface. -/
theorem Entity.Formed.hasMember {e : Entity} {u : Structure} {i : Nat} (h : e.Formed)
    (hu : e.struct? = some u) (hi : i ≤ e.role.member 0) : u.hasMember i = true := by
  refine decide_eq_true (Nat.lt_of_le_of_lt hi ?_)
  cases e with
  | sharedWrapper v =>
    cases hu
    rw [show v.struct.layout = v.cls.layout from h]
    exact v.cls.sharedFirst_lt_length
  | ownedWrapper v =>
    cases hu
    rw [show v.struct.layout = v.cls.layout from h]
    exact v.cls.ownedFirst_lt_length
  | sharedFar f =>
    cases hu
    rw [show f.struct.layout = Layout.sharedChild from h]
    exact of_decide_eq_true rfl
  | ownedFar f =>
    cases hu
    rw [show f.struct.layout = Layout.ownedChild from h]
    exact of_decide_eq_true rfl
  | _ => cases hu

/-- What is offered lies within the recorded size and is not null. -/
theorem Structure.offers_iff (u : Structure) (i : Nat) :
    u.offers i = true ↔ Layout.offset i + Layout.wordSize ≤ u.size.toNat ∧ u.isSet i = true := by
  rw [offers, Bool.and_eq_true, covers, coversWord, decide_eq_true_iff]

/-! ## Acts that do the same -/

namespace Act

variable {α β : Type} {x y : Act α} {w : World}

/-- Two acts do the same in a world, whatever the phase. -/
def Agrees (x y : Act α) (w : World) : Prop := ∀ phase, x phase w = y phase w

theorem agrees_refl (x : Act α) (w : World) : Agrees x x w := fun _ => rfl

theorem Agrees.symm (h : Agrees x y w) : Agrees y x w := fun phase => (h phase).symm

theorem Agrees.trans {z : Act α} (h : Agrees x y w) (h' : Agrees y z w) : Agrees x z w :=
  fun phase => (h phase).trans (h' phase)

theorem Agrees.bind (h : Agrees x y w) (f : α → Act β) : Agrees (x >>= f) (y >>= f) w :=
  fun phase => by rw [bind_apply, bind_apply, h phase]

/-- After an act that only looks, two acts need to do the same with the entities at hand. -/
theorem agrees_bind {f g : α → Act β} (h : Respects World.Quiet x w)
    (hfg : ∀ a w', w.Quiet w' → Agrees (f a) (g a) w') : Agrees (x >>= f) (x >>= g) w := by
  intro phase
  have hq := h phase
  rw [bind_apply, bind_apply]
  rcases hx : x phase w with ⟨a | _ | _ | _, w'⟩
  · rw [hx] at hq
    exact hfg a w' hq phase
  · rfl
  · rfl
  · rfl

theorem agrees_entity_bind {z : Id} {n : Node} {f : Entity → Act α} (hn : w.store.get? z = some n)
    (hlive : n.live = true) (h : Agrees (f n.entity) y w) : Agrees (entity z >>= f) y w :=
  fun phase => by rw [bind_apply, entity_apply hn hlive]; exact h phase

theorem agrees_ofOption_bind {γ : Type} {m : Misuse} {o : Option γ} {c : γ} {f : γ → Act α}
    (ho : o = some c) (h : Agrees (f c) y w) : Agrees (ofOption m o >>= f) y w := by
  subst ho
  exact h

theorem Agrees.contained (h : Agrees x y w) : Agrees (contained x) (contained y) w :=
  fun phase => by rw [Act.contained, Act.contained, h phase]

theorem Agrees.calling (h : Agrees x y w) (t : Structure) (position : Nat) :
    Agrees (calling t position x) (calling t position y) w := by
  unfold Act.calling
  split
  · exact h
  · exact agrees_refl _ _

/-- A structure that is at hand shows what it offers. -/
theorem agrees_throughOffered {s : Id} {n : Node} {t : Structure} {position : Nat} {absent : α}
    (hn : w.store.get? s = some n) (hlive : n.live = true) (ht : n.entity.struct? = some t)
    (h : Agrees x y w) :
    Agrees (throughOffered s position absent x)
      (if t.offers position then Act.calling t position (contained y) else pure absent) w := by
  unfold throughOffered struct
  rw [bind_assoc]
  refine agrees_entity_bind hn hlive (agrees_ofOption_bind ht ?_)
  split
  · exact h.contained.calling t position
  · exact agrees_refl _ _

/-- A value is made from what a function member brings, inside of it or outside. -/
theorem contained_map (x : Act α) (g : α → β) :
    contained (x >>= fun a => pure (g a)) = contained x >>= fun a => pure (g a) := by
  funext phase w
  rw [bind_apply, contained, contained, bind_apply]
  rcases x phase w with ⟨_ | _ | _ | _, w'⟩ <;> rfl

theorem calling_bind (t : Structure) (position : Nat) (x : Act α) (f : α → Act β) :
    calling t position (x >>= f) = calling t position x >>= f := by
  unfold calling
  split <;> rfl

/-- A function of the far side never unwinds. -/
theorem contained_farAnswer (x : Id) (a : FarAnswers) (index : Nat) :
    contained (farAnswer x a index) = farAnswer x a index := by
  funext phase w
  unfold farAnswer
  cases a.value? index <;> rfl

/-! ## Asking and calling -/

section Asking

variable {q t o : Id} {n m : Node} {u : Structure} {index : Nat} {name : String}

/-- What is found at the bottom of a chain is found below its top. -/
theorem answer_eq (hs : w.store.Sound) (index : Nat) (q : Id) :
    Agrees (answer index q)
      (answerAlong index (q :: (w.store.below? q).elim [] w.store.chain)) w := by
  intro phase
  show answerAlong index (w.store.chain q) phase w = _
  rw [Store.chain_eq_cons hs.earlier]

/-- A proxy that is asked calls what its structure offers, or answers zero. -/
theorem agrees_answer_proxy (hs : w.store.Sound) (hn : w.store.get? q = some n)
    (hlive : n.live = true) (hq : n.entity.isProxy = true) (ht : n.entity.below? = some t)
    (hm : w.store.get? t = some m) (hmlive : m.live = true) (hu : m.entity.struct? = some u)
    (index : Nat) :
    Agrees (answer index q)
      (requireRunning >>= fun _ =>
        if u.offers (n.entity.linkRole.member index) then
          calling u (n.entity.linkRole.member index) (contained (answer index t))
        else pure 0) w := by
  refine (answer_eq hs index q).trans ?_
  rw [Store.below?_eq_some hn, ht, Option.elim_some]
  refine agrees_entity_bind hn hlive ?_
  have hoffered {act : Act Int32} {i : Nat}
      (hact : ∀ w', w.Quiet w' → Agrees act (answer index t) w') :
      Agrees (requireRunning >>= fun _ => throughOffered t i 0 act)
        (requireRunning >>= fun _ =>
          if u.offers i then calling u i (contained (answer index t)) else pure 0) w :=
    agrees_bind respects_requireRunning fun _ w' hq =>
      agrees_throughOffered (hq.store ▸ hm) hmlive hu (hact w' hq)
  have hbelow : ∀ w', w.Quiet w' →
      Agrees (answerAlong index (w.store.chain t)) (answer index t) w' := by
    intro w' hq phase
    show answerAlong index (w.store.chain t) phase w' =
      answerAlong index (w'.store.chain t) phase w'
    rw [hq.store]
  obtain ⟨name, e, live⟩ := n
  cases e with
  | sharedProxy p =>
    cases ht
    exact hoffered hbelow
  | ownedProxy p =>
    have htarget : p.target = some t := ht
    dsimp only
    rw [htarget]
    exact hoffered hbelow
  | _ => cases hq

/-- A proxy whose structure was taken out answers zero. -/
theorem agrees_answer_hollow (hs : w.store.Sound) (hn : w.store.get? q = some n)
    (hlive : n.live = true) (hq : n.entity.isProxy = true) (ht : n.entity.below? = none)
    (index : Nat) : Agrees (answer index q) (requireRunning >>= fun _ => pure 0) w := by
  refine (answer_eq hs index q).trans (agrees_entity_bind hn hlive ?_)
  obtain ⟨name, e, live⟩ := n
  cases e with
  | sharedProxy p => cases ht
  | ownedProxy p =>
    have htarget : p.target = none := ht
    dsimp only
    rw [htarget]
    exact agrees_refl _ _
  | _ => cases hq

/-- A class finds the object behind a structure of its own. -/
theorem agrees_objectOf {tag : Tag} {f : Option Id → Act α} (hn : w.store.get? t = some n)
    (hlive : n.live = true) (htag : n.entity.wrapperTag? = some tag) :
    Agrees (objectOf tag t >>= f) (requireRunning >>= fun _ => f n.entity.below?) w := by
  unfold objectOf recognises wrapperTag
  rw [bind_assoc]
  refine agrees_bind respects_requireRunning fun _ w' hq => ?_
  have hn' := hq.store ▸ hn
  rw [bind_assoc, bind_assoc, bind_assoc]
  refine agrees_entity_bind hn' hlive (agrees_ofOption_bind htag ?_)
  rw [beq_self_eq_true, require_true, pure_bind, pure_bind, if_pos rfl, bind_assoc]
  exact agrees_entity_bind hn' hlive (agrees_refl _ _)

/-- The object behind a structure answers for a function of an interface. -/
theorem agrees_interfaceMember {tag : Tag} (hn : w.store.get? t = some n) (hlive : n.live = true)
    (htag : n.entity.wrapperTag? = some tag) (ho : n.entity.below? = some o) (index : Nat) :
    Agrees (interfaceMember tag (some t) index)
      (requireRunning >>= fun _ => requireRunning >>= fun _ =>
        answerAlong index (w.store.chain o)) w := by
  refine agrees_bind respects_requireRunning fun _ w₁ h₁ => ?_
  refine (agrees_objectOf (h₁.store ▸ hn) hlive htag).trans ?_
  refine agrees_bind respects_requireRunning fun _ w₂ h₂ phase => ?_
  rw [ho, ← h₁.store, ← h₂.store]
  rfl

/-- So it does for a function of a table. -/
theorem agrees_tableMember {tag : Tag} (hn : w.store.get? t = some n) (hlive : n.live = true)
    (htag : n.entity.wrapperTag? = some tag) (ho : n.entity.below? = some o) (index : Nat) :
    Agrees (tableMember tag (some t) index)
      (requireRunning >>= fun _ => answerAlong index (w.store.chain o)) w := by
  refine (agrees_objectOf hn hlive htag).trans ?_
  refine agrees_bind respects_requireRunning fun _ w₁ h₁ phase => ?_
  rw [ho, ← h₁.store]
  rfl

/-- A function of the interfaces that is called on its own structure asks the structure. -/
theorem agrees_call (hs : w.store.Sound) (hm : w.store.get? t = some m) (hlive : m.live = true)
    (hu : m.entity.struct? = some u) (hvacant : m.entity.isVacant = false)
    (hset : u.isSet (m.entity.role.member index) = true) :
    Agrees (call t (m.entity.role.member index) (some t))
      (contained (answer index t) >>= fun r => pure (.number r)) w := by
  have hanswer := answer_eq hs index t
  refine agrees_entity_bind hm hlive (agrees_ofOption_bind hu ?_)
  rw [if_pos hset]
  -- What the structure finds when it is asked, and what its function does.
  have hasked {o : Id} {act : Act Int32} (ho : m.entity.below? = some o)
      (hact : Agrees (answerAlong index (t :: w.store.chain o)) act w) :
      Agrees (answer index t) act w := by
    rw [Store.below?_eq_some hm, ho, Option.elim_some] at hanswer
    exact hanswer.trans hact
  have hmember {act : Act Int32} (h : Agrees act (answer index t) w) :
      Agrees (contained (act >>= fun r => pure (Reply.number r)))
        (contained (answer index t) >>= fun r => pure (.number r)) w := by
    rw [contained_map]
    exact h.contained.bind _
  have hfar {a : FarAnswers} (h : Agrees (answer index t) (farAnswer t a index) w) :
      Agrees (farAnswer t a index >>= fun r => pure (Reply.number r))
        (contained (answer index t) >>= fun r => pure (.number r)) w := by
    rw [← contained_farAnswer]
    exact h.contained.symm.bind _
  obtain ⟨name, e, live⟩ := m
  cases e with
  | sharedWrapper v =>
    show Agrees (contained (sharedMember v.cls (4 + index) (some t))) _ w
    rw [Nat.add_comm]
    obtain ⟨cls, object, struct, count⟩ := v
    cases cls with
    | table key width =>
      refine hmember ((agrees_tableMember hm hlive rfl rfl index).trans (hasked rfl ?_).symm)
      exact agrees_entity_bind hm hlive (agrees_refl _ _)
    | client | child | bare =>
      refine hmember ((agrees_interfaceMember hm hlive rfl rfl index).trans (hasked rfl ?_).symm)
      exact agrees_entity_bind hm hlive (agrees_refl _ _)
  | ownedWrapper v =>
    obtain ⟨o, ho⟩ : ∃ o, v.object = some o :=
      Option.isSome_iff_exists.mp (Option.isNone_eq_false_iff.mp hvacant)
    show Agrees (contained (ownedMember v.cls (1 + index) (some t))) _ w
    rw [Nat.add_comm]
    refine hmember ((agrees_interfaceMember hm hlive rfl ho index).trans (hasked ho ?_).symm)
    exact agrees_entity_bind hm hlive (agrees_refl _ _)
  | sharedFar f =>
    show Agrees (sharedFarMember (4 + index) t) _ w
    rw [Nat.add_comm]
    refine agrees_entity_bind hm hlive (hfar ?_)
    rw [Store.below?_eq_some hm] at hanswer
    exact hanswer.trans (agrees_entity_bind hm hlive (agrees_refl _ _))
  | ownedFar f =>
    show Agrees (ownedFarMember (1 + index) t) _ w
    rw [Nat.add_comm]
    refine agrees_entity_bind hm hlive (hfar ?_)
    rw [Store.below?, hm] at hanswer
    exact hanswer.trans (agrees_entity_bind hm hlive (agrees_refl _ _))
  | _ => cases hu

end Asking

/-! ## Before shutdown -/

/-- Before shutdown its check is passed, whatever the settings. -/
theorem requireRunning_passes (h : w.isShutdown = false) (phase : Phase) :
    ∃ w', requireRunning phase w = (.done (), w') ∧ Consults w w' := by
  obtain ⟨w', hw', hc⟩ := settings_apply phase w
  refine ⟨w', ?_, hc⟩
  have hrunning : w'.isShutdown = false := hc.quiet.isShutdown.trans h
  rw [requireRunning, bind_apply, hw']
  dsimp only
  split
  · rw [bind_apply, get]
    dsimp only
    rw [hrunning]
    rfl
  · rfl

end Act

/-! ## Calls of the far side -/

/-- The function of the far side of which an event tells. -/
def Event.call? : Event → Option (Id × String)
  | .called x member => some (x, member)
  | _ => none

/-- A structure has a function member that lies within the recorded size and is not null. -/
def Store.Offers (st : Store) (x : Id) (member : String) : Prop :=
  ∃ n u i, st.get? x = some n ∧ n.entity.struct? = some u ∧ u.layout.position? member = some i ∧
    Layout.offset i + Layout.wordSize ≤ u.size.toNat ∧ u.isSet i = true

namespace World

/-- The functions of the far side that were called, one after the other. -/
def calls (w : World) : List (Id × String) := w.log.filterMap Event.call?

/-- No entity has changed, and of the far side only certain functions were called. -/
structure CallsWithin (P : Id → String → Prop) (w w' : World) : Prop where
  store : w'.store = w.store
  calls : ∃ l, w'.calls = w.calls ++ l ∧ ∀ c ∈ l, P c.1 c.2

variable {P : Id → String → Prop} {w w' : World}

instance : IsPreorder World (CallsWithin P) where
  refl w := ⟨rfl, [], (List.append_nil _).symm, nofun⟩
  trans := by
    rintro w w' w'' ⟨hstore, l, hl, hall⟩ ⟨hstore', l', hl', hall'⟩
    refine ⟨hstore'.trans hstore, l ++ l', by rw [hl', hl, List.append_assoc], fun c hc => ?_⟩
    rcases List.mem_append.mp hc with hc | hc
    · exact hall c hc
    · exact hall' c hc

theorem callsWithin_log {e : Event} (h : ∀ c, e.call? = some c → P c.1 c.2) :
    w.CallsWithin P { w with log := w.log ++ [e] } := by
  refine ⟨rfl, [e].filterMap Event.call?, List.filterMap_append, fun c hc => ?_⟩
  obtain ⟨e', he', hcall⟩ := List.mem_filterMap.mp hc
  cases List.mem_singleton.mp he'
  exact h c hcall

/-- Nothing is called where nothing may be. -/
theorem CallsWithin.eq (h : w.CallsWithin (fun _ _ => False) w') : w'.calls = w.calls := by
  obtain ⟨-, l, hl, hall⟩ := h
  rw [hl, List.eq_nil_iff_forall_not_mem.mpr hall, List.append_nil]

end World

namespace Act

variable {w : World} {P : Id → String → Prop}

theorem within_emit {e : Event} (h : ∀ c, e.call? = some c → P c.1 c.2) :
    Respects (World.CallsWithin P) (emit e) w :=
  respects_modify (World.callsWithin_log h)

theorem within_settings : Respects (World.CallsWithin P) settings w := by
  have hforce {w : World} {s : Settings} : Respects (World.CallsWithin P)
      (modify fun w => { w with settings := some s }) w :=
    respects_modify ⟨rfl, [], (List.append_nil _).symm, nofun⟩
  apply respects_get_bind
  cases w.settings with
  | some s => exact respects_pure s
  | none =>
    rcases resolve w.environment with ⟨s, _ | e⟩
    · exact respects_bind hforce fun _ _ _ => respects_pure s
    · refine respects_bind (within_emit nofun) fun _ _ _ => ?_
      exact respects_bind hforce fun _ _ _ => respects_pure s

theorem within_require (condition : Bool) (failure : Failure) :
    Respects (World.CallsWithin P) (require condition failure) w := by
  cases condition with
  | true => exact respects_pure ()
  | false =>
    refine respects_bind (within_emit nofun) fun _ _ _ => ?_
    refine respects_bind within_settings fun s _ _ => ?_
    split
    · exact respects_unwind failure
    · exact respects_pure ()

theorem within_requireRunning : Respects (World.CallsWithin P) requireRunning w := by
  refine respects_bind within_settings fun s _ _ => ?_
  split
  · exact respects_bind respects_get fun _ _ _ => within_require _ _
  · exact respects_pure ()

/-- Before shutdown its check calls nothing. -/
theorem calls_requireRunning (w : World) (phase : Phase) :
    (requireRunning phase w).2.calls = w.calls :=
  World.CallsWithin.eq (within_requireRunning phase)

/-- A structure of the far side that offers a function calls it and nothing else. -/
theorem within_farAnswer {st : Store} {index : Nat} {x : Id} {n : Node} {a : FarAnswers}
    (hs : st.Sound) (hn : st.get? x = some n) (ha : n.entity.answers? = some a)
    (hx : ∀ u, n.entity.struct? = some u → u.offers (n.entity.role.member index) = true) :
    Respects (World.CallsWithin st.Offers) (farAnswer x a index) w := by
  unfold farAnswer
  cases hr : a.value? index with
  | none => exact respects_refuse _
  | some v =>
    obtain ⟨member, r⟩ := v
    show Respects _ (emit (.called x member) >>= fun _ => pure r) w
    refine respects_map (within_emit fun c hc => ?_)
    cases hc
    obtain ⟨u, hu⟩ : ∃ u, n.entity.struct? = some u := by
      obtain ⟨name, e, live⟩ := n
      cases e <;> first | exact ⟨_, rfl⟩ | cases ha
    have hoffers := (u.offers_iff _).mp (hx u hu)
    exact ⟨n, u, _, hn, hu, (hs.formed x n hn).position_member ha hu hr, hoffers⟩

/-- Whoever is asked for a value calls functions of the far side only if their structures offer
them. -/
theorem within_answerAlong {st : Store} {index : Nat} (hs : st.Sound) (x : Id)
    (hx : ∀ n u, st.get? x = some n → n.entity.struct? = some u →
      u.offers (n.entity.role.member index) = true) (hw : w.store = st) :
    Respects (World.CallsWithin st.Offers) (answerAlong index (st.chain x)) w := by
  induction x using Nat.strongRecOn generalizing w with
  | ind x ih =>
    rw [Store.chain_eq_cons hs.earlier]
    apply respects_entity_bind
    intro n hn hlive
    rw [hw] at hn
    obtain ⟨name, e, live⟩ := n
    -- What is below a wrapper is an object and no structure; what is below a proxy is a structure,
    -- at which the proxy has looked.
    have hobject {y : Id} (hy : e.below? = some y)
        (hr : e.linkRole = .sharedObject ∨ e.linkRole = .ownedObject) {w' : World}
        (hw' : w'.store = st) :
        Respects (World.CallsWithin st.Offers) (answerAlong index ((st.below? x).elim [] st.chain))
          w' := by
      obtain ⟨hlt, hrole⟩ := hs.linked x _ y hn hy
      rw [Store.below?_eq_some hn, hy, Option.elim_some]
      refine ih y hlt (fun m u hm hu => ?_) hw'
      obtain ⟨m', hm', hr'⟩ := hrole
      cases hm.symm.trans hm'
      cases (Entity.struct?_eq_none (hr.imp hr'.trans hr'.trans)).symm.trans hu
    have hproxied {y : Id} (hy : e.below? = some y) {w' : World} (hw' : w'.store = st) :
        Respects (World.CallsWithin st.Offers)
          (throughOffered y (e.linkRole.member index) 0
            (answerAlong index ((st.below? x).elim [] st.chain))) w' := by
      obtain ⟨hlt, m, hm, hr⟩ := hs.linked x _ y hn hy
      unfold throughOffered struct
      rw [bind_assoc]
      apply respects_entity_bind
      intro m' hm' _
      cases hm.symm.trans (hw' ▸ hm')
      cases hu : m.entity.struct? with
      | none => exact respects_refuse _
      | some u =>
        show Respects _ (if u.offers _ then _ else _) w'
        split
        · rename_i hoffers
          rw [Store.below?_eq_some hn, hy, Option.elim_some]
          refine respects_calling (respects_contained (ih y hlt (fun m' u' hm' hu' => ?_) hw'))
          cases hm.symm.trans hm'
          cases hu.symm.trans hu'
          exact hr ▸ hoffers
        · exact respects_pure _
    have hfar {a : FarAnswers} (ha : e.answers? = some a) :
        Respects (World.CallsWithin st.Offers) (farAnswer x a index) w :=
      within_farAnswer hs hn ha fun u hu => hx _ u hn hu
    cases e with
    | sharedObject o => exact respects_ofOption _ _
    | ownedObject o => exact respects_ofOption _ _
    | sharedWrapper v =>
      have hrest {w' : World} (hw' : w'.store = st) : Respects (World.CallsWithin st.Offers)
          (requireRunning >>= fun _ => answerAlong index ((st.below? x).elim [] st.chain)) w' :=
        respects_bind within_requireRunning fun _ _ h =>
          hobject rfl (Or.inl rfl) (h.store.trans hw')
      dsimp only
      cases v.cls with
      | table _ _ => exact hrest hw
      | _ => exact respects_bind within_requireRunning fun _ _ h => hrest (h.store.trans hw)
    | ownedWrapper v =>
      refine respects_bind within_requireRunning fun _ _ h =>
        respects_bind within_requireRunning fun _ _ h' => ?_
      have hw' := h'.store.trans (h.store.trans hw)
      cases ho : v.object with
      | none =>
        rw [Store.below?_eq_some hn, show Entity.below? (.ownedWrapper v) = none from ho]
        exact respects_refuse _
      | some o => exact hobject ho (Or.inr rfl) hw'
    | sharedProxy p =>
      exact respects_bind within_requireRunning fun _ _ h => hproxied rfl (h.store.trans hw)
    | ownedProxy p =>
      refine respects_bind within_requireRunning fun _ _ h => ?_
      cases hp : p.target with
      | none => exact respects_pure _
      | some y => exact hproxied hp (h.store.trans hw)
    | sharedFar f => exact hfar rfl
    | ownedFar f => exact hfar rfl
    | _ => exact respects_refuse _

theorem within_answer {index : Nat} {x : Id} (hs : w.store.Sound)
    (hx : ∀ n u, w.store.get? x = some n → n.entity.struct? = some u →
      u.offers (n.entity.role.member index) = true) :
    Respects (World.CallsWithin w.store.Offers) (answer index x) w :=
  respects_get_bind (within_answerAlong hs x hx rfl)

end Act

end ObjectBoundary
