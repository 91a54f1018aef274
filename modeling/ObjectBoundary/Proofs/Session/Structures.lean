import ObjectBoundary.Proofs.Session.Plans

/-!
# Steps that use structures

Calling members directly enters references into the ledger and takes them out; changing what a
structure says about itself does not.

* `Layout.position_of_shared`: where the members that count references lie.
* `StructStep.balances`: such steps keep the balance.
-/

namespace ObjectBoundary

open Act

/-! ## Where members lie -/

namespace Layout

/-- A layout that begins with the members that count references. -/
def IsShared (l : Layout) : Prop := ∃ rest, l.names = "add_ref" :: "release" :: rest

theorem position_of_shared {l : Layout} (h : l.IsShared) {member : String} {i : Nat}
    (hi : l.position? member = some i) :
    (i = addRef ↔ member = "add_ref") ∧ (i = release ↔ member = "release") := by
  obtain ⟨rest, hnames⟩ := h
  rw [position?, hnames, List.idxOf?_cons] at hi
  by_cases hadd : "add_ref" = member
  · subst hadd
    simp only [beq_self_eq_true, if_true, Option.some.injEq] at hi
    subst hi
    exact ⟨⟨fun _ => rfl, fun _ => rfl⟩,
      ⟨fun h => absurd h (by decide), fun h => absurd h (by decide)⟩⟩
  · rw [if_neg (by simpa using hadd), List.idxOf?_cons] at hi
    by_cases hrelease : "release" = member
    · subst hrelease
      simp only [beq_self_eq_true, if_true, Option.map_some, Option.some.injEq] at hi
      subst hi
      exact ⟨⟨fun h => absurd h (by decide), fun h => absurd h (by decide)⟩,
        ⟨fun _ => rfl, fun _ => rfl⟩⟩
    · rw [if_neg (by simpa using hrelease)] at hi
      obtain ⟨j, hj, rfl⟩ := Option.map_eq_some_iff.mp hi
      obtain ⟨k, -, rfl⟩ := Option.map_eq_some_iff.mp hj
      constructor
      · exact ⟨fun h => absurd h (by unfold addRef; omega), fun h => absurd h.symm hadd⟩
      · exact ⟨fun h => absurd h (by unfold release; omega), fun h => absurd h.symm hrelease⟩

theorem position_addRef {l : Layout} (h : l.IsShared) : l.position? "add_ref" = some addRef := by
  obtain ⟨rest, hnames⟩ := h
  rw [position?, hnames, List.idxOf?_cons, if_pos (beq_self_eq_true _)]
  rfl

theorem position_release {l : Layout} (h : l.IsShared) :
    l.position? "release" = some release := by
  obtain ⟨rest, hnames⟩ := h
  rw [position?, hnames, List.idxOf?_cons, if_neg (by decide), List.idxOf?_cons,
    if_pos (beq_self_eq_true _)]
  rfl

theorem sharedClass_isShared (c : SharedClass) : c.layout.IsShared := by
  cases c <;> exact ⟨_, rfl⟩

/-- Structures with a single owner count no references. -/
theorem position_of_owned (c : OwnedClass) :
    c.layout.position? "add_ref" = none ∧ c.layout.position? "release" = none := by
  have hlayout : c.layout = ownedClient ∨ c.layout = ownedChild := by
    cases c
    · exact Or.inl rfl
    · exact Or.inr rfl
    · exact Or.inl rfl
  rcases hlayout with h | h <;> rw [h] <;> decide

/-- A layout that begins with the member that deletes. -/
def IsOwned (l : Layout) : Prop := ∃ rest, l.names = "del" :: rest

theorem ownedClass_isOwned (c : OwnedClass) : c.layout.IsOwned := by
  cases c <;> exact ⟨_, rfl⟩

theorem position_del_of_owned {l : Layout} (h : l.IsOwned) {member : String} {i : Nat}
    (hi : l.position? member = some i) : i = del ↔ member = "del" := by
  obtain ⟨rest, hnames⟩ := h
  rw [position?, hnames, List.idxOf?_cons] at hi
  by_cases hdel : "del" = member
  · subst hdel
    simp only [beq_self_eq_true, if_true, Option.some.injEq] at hi
    subst hi
    exact ⟨fun _ => rfl, fun _ => rfl⟩
  · rw [if_neg (by simpa using hdel)] at hi
    obtain ⟨j, -, rfl⟩ := Option.map_eq_some_iff.mp hi
    exact ⟨fun h => absurd h (Nat.succ_ne_zero j), fun h => absurd h.symm hdel⟩

/-- Reference counted structures cannot be deleted. -/
theorem position_del_of_shared (c : SharedClass) : c.layout.position? "del" = none := by
  have htable (width : Nat) : "del" ∉ (table width).names := by
    intro h
    rcases List.mem_append.mp h with h | h
    · exact absurd h (by decide)
    · obtain ⟨i, -, hi⟩ := List.mem_map.mp h
      have hfirst := congrArg String.toList hi
      simp at hfirst
  rw [position?, List.idxOf?_eq_none_iff]
  cases c with
  | table width _ => exact htable width
  | client | bare => exact (show "del" ∉ sharedClient.names by decide)
  | child => decide

end Layout

namespace Entity

variable {e : Entity} {t : Structure}

theorem Formed.isShared (h : e.Formed) (hr : e.role = .sharedStructure) (ht : e.struct? = some t) :
    t.layout.IsShared := by
  cases e with
  | sharedWrapper v =>
    cases ht
    rw [h]
    exact Layout.sharedClass_isShared v.cls
  | sharedFar f =>
    cases ht
    rw [h]
    exact ⟨_, rfl⟩
  | _ => cases hr

theorem Formed.not_counts (h : e.Formed) (hr : e.role = .ownedStructure)
    (ht : e.struct? = some t) :
    t.layout.position? "add_ref" = none ∧ t.layout.position? "release" = none := by
  cases e with
  | ownedWrapper v =>
    cases ht
    rw [h]
    exact Layout.position_of_owned v.cls
  | ownedFar f =>
    cases ht
    rw [h]
    exact Layout.position_of_owned .child
  | _ => cases hr

theorem Formed.isOwned (h : e.Formed) (hr : e.role = .ownedStructure) (ht : e.struct? = some t) :
    t.layout.IsOwned := by
  cases e with
  | ownedWrapper v =>
    cases ht
    rw [h]
    exact Layout.ownedClass_isOwned v.cls
  | ownedFar f =>
    cases ht
    rw [h]
    exact Layout.ownedClass_isOwned .child
  | _ => cases hr

theorem Formed.not_deletes (h : e.Formed) (hr : e.role = .sharedStructure)
    (ht : e.struct? = some t) : t.layout.position? "del" = none := by
  cases e with
  | sharedWrapper v =>
    cases ht
    rw [h]
    exact Layout.position_del_of_shared v.cls
  | sharedFar f =>
    cases ht
    rw [h]
    exact Layout.position_del_of_shared .child
  | _ => cases hr

theorem role_of_struct? (ht : e.struct? = some t) :
    e.role = .sharedStructure ∨ e.role = .ownedStructure := by
  cases e <;> first | exact Or.inl rfl | exact Or.inr rfl | cases ht

/-- Changing what a structure says about itself concerns no reference. -/
theorem keeps_withStruct {name : String} {live : Bool} {t' : Structure} (ht : e.struct? = some t)
    (hc : t.Continues t') :
    Node.Keeps ⟨name, e, live⟩ ⟨name, e.withStruct t', live⟩ := by
  cases e with
  | sharedWrapper v => cases ht; exact ⟨⟨rfl, id, rfl, rfl, hc⟩, id, rfl, fun _ => rfl, rfl⟩
  | ownedWrapper v =>
    cases ht
    exact ⟨⟨rfl, id, rfl, rfl, Or.inl rfl, hc⟩, id, rfl, fun _ => rfl, rfl⟩
  | sharedFar f => cases ht; exact ⟨⟨rfl, id, rfl, hc⟩, id, rfl, fun _ => rfl, rfl⟩
  | ownedFar f => cases ht; exact ⟨⟨rfl, id, rfl, hc⟩, id, rfl, fun _ => rfl, rfl⟩
  | _ => cases ht

end Entity

theorem Structure.continues_clear (t : Structure) (i : Nat) : t.Continues (t.clear i) :=
  ⟨rfl, fun _ => isSet_of_isSet_clear⟩

theorem Structure.continues_withSize (t : Structure) (size : UInt64) :
    t.Continues (t.withSize size) := ⟨rfl, fun _ h => h⟩

namespace Session

variable {slots : Slots} {s : State} {w : World} {p : Plan} {x : Id}

/-! ## Changing structures -/

theorem respects_change {f : Structure → Structure} (hf : ∀ t : Structure, t.Continues (f t)) :
    Respects World.Still (StructStep.change x f) w := by
  apply respects_entity_bind
  intro n hn hlive
  cases ht : n.entity.struct? with
  | none => exact respects_refuse _
  | some t =>
    have hput : Respects World.Still (put x (n.entity.withStruct (f t))) w := by
      apply respects_put hn (Entity.keeps_withStruct ht (hf t))
      obtain ⟨name, e, live⟩ := n
      cases e <;> rfl
    exact hput

theorem respects_position {R : World → World → Prop} [IsPreorder World R] (x : Id)
    (member : String) : Respects R (StructStep.position x member) w :=
  respects_bind (respects_struct x) fun _ _ _ => respects_ofOption _ _

/-- A member of an existing structure has its position. -/
theorem position_apply {member : String} {n : Node} {t : Structure} {i : Nat}
    (hn : w.store.get? x = some n) (hlive : n.live = true) (ht : n.entity.struct? = some t)
    (hi : t.layout.position? member = some i) (phase : Phase) :
    StructStep.position x member phase w = (.done i, w) := by
  unfold StructStep.position struct
  rw [bind_assoc, bind_apply, entity_apply hn hlive]
  show (ofOption .wrongKind n.entity.struct? >>= _) phase w = _
  rw [ht]
  show ofOption .unknown (t.layout.position? member) phase w = _
  rw [hi]
  rfl

theorem ends_position_bind {α : Type} {member : String} {f : Nat → Act α} {Q : α → World → Prop}
    {U : Failure → World → Prop}
    (h : ∀ n t i, w.store.get? x = some n → n.entity.struct? = some t →
      t.layout.position? member = some i → Ends (f i) w Q U) :
    Ends (StructStep.position x member >>= f) w Q U := by
  unfold StructStep.position struct
  rw [bind_assoc, bind_assoc]
  apply ends_entity_bind
  intro n hn hlive
  cases ht : n.entity.struct? with
  | none => exact ends_refuse
  | some t =>
    cases hi : t.layout.position? member with
    | none =>
      show Ends (ofOption .unknown (t.layout.position? member) >>= f) w Q U
      rw [hi]
      exact ends_refuse
    | some i => exact ends_ofOption_bind rfl (ends_ofOption_bind hi (h n t i hn ht hi))

/-! ## Calls -/

/-- A call moves what it enters into the ledger. -/
theorem ends_call_position (hs : w.store.Sound) {member : String} {r : Option Id} :
    Ends (StructStep.position x member >>= fun i => call x i r) w
      (fun _ w' => Calls.Moves w w'
        (if member = "add_ref" then credit (w.store.callee? x Layout.addRef r) 1
        else if member = "release" then credit (w.store.callee? x Layout.release r) (-1)
        else 0))
      fun e w' => World.Disturbed e w' ∨ w.Turns w' 0 := by
  apply ends_position_bind
  intro n t i hn ht hi
  rcases Entity.role_of_struct? ht with hr | hr
  · obtain ⟨hadd, hrelease⟩ :=
      Layout.position_of_shared ((hs.formed x n hn).isShared hr ht) hi
    refine ends_mono (ends_call hs ⟨n, hn, hr⟩ i) (fun _ w' h => ?_) fun _ _ hu => hu
    unfold Store.called at h
    by_cases ha : member = "add_ref"
    · rw [if_pos ha]
      rw [if_pos (hadd.mpr ha), hadd.mpr ha] at h
      exact h
    · rw [if_neg ha]
      rw [if_neg fun h => ha (hadd.mp h)] at h
      by_cases hb : member = "release"
      · rw [if_pos hb]
        rw [if_pos (hrelease.mpr hb), hrelease.mpr hb] at h
        exact h
      · rw [if_neg hb]
        rwa [if_neg fun h => hb (hrelease.mp h)] at h
  · obtain ⟨hadd, hrelease⟩ := (hs.formed x n hn).not_counts hr ht
    have ha : member ≠ "add_ref" := by
      intro heq
      subst heq
      rw [hi] at hadd
      cases hadd
    have hb : member ≠ "release" := by
      rintro rfl
      rw [hi] at hrelease
      cases hrelease
    rw [if_neg ha, if_neg hb]
    exact ends_mono (ends_of_respects (respects_call ⟨n, hn, hr⟩ i))
      (fun _ _ h => ⟨h.turns hs, fun z hz => absurd rfl hz⟩) fun _ _ h => Or.inr (h.turns hs)

/-- The structure on which the call of a plan acts. -/
theorem State.calleeAt_eq {source : String} {r : Receiver} {y : Id} {r' : Option Id}
    (hy : slots.argument (some source) = .ok (.struct y))
    (hr : StructStep.receiver slots y r = .ok r') (i : Nat) :
    State.calleeAt ⟨w, slots⟩ source i r = w.store.callee? y i r' := by
  unfold State.calleeAt
  rw [Slots.structAt_of_argument hy]
  cases r with
  | itself =>
    cases hr
    rfl
  | given z =>
    have hz := Slots.structAt_of_argument (Slots.argument_of_struct? hr)
    cases r' with
    | none => exact congrArg (w.store.callee? y i) hz
    | some r' => exact congrArg (w.store.callee? y i) hz

theorem StructStep.balances {x : StructStep} (h : x.plan slots = .ok p) (hs : w.store.Sound) :
    p.Balances slots w fun made => (Step.struct x).handed ⟨w, slots⟩ made := by
  cases planned h with
  | call source member r y r' hy hr =>
    apply balances_answering (c := none)
    rw [← bind_assoc]
    refine ends_bind (ends_mono (ends_call_position hs) (fun _ _ h => h) fun _ _ hu => ?_)
      fun _ w' h' => ends_pure ?_
    · exact hu.imp id fun ht => ht.of_eq neg_zero.symm
    · dsimp only [Step.handed]
      rw [State.calleeAt_eq hy hr, State.calleeAt_eq hy hr]
      exact ⟨h'.1.of_eq (sub_zero _).symm, h'.2⟩
  | clear source member y =>
    refine balances_of_still (c := none) hs ?_ rfl
    exact respects_bind (respects_position y member) fun i _ _ =>
      respects_silently (respects_change fun t => t.continues_clear i)
  | resize source n y =>
    exact balances_of_still (c := none) hs
      (respects_silently (respects_change fun t => t.continues_withSize n)) rfl
  | size source y =>
    exact balances_of_quiet hs (respects_map (respects_struct y))
  | object c source y =>
    exact balances_of_quiet hs (respects_bind (respects_objectOf _ y) fun _ _ _ =>
      respects_asName _)

end Session

end ObjectBoundary
