import ObjectBoundary.Proofs.Acts.Shared

/-!
# Calling function members directly

The far side may call the members of a structure with any receiver. Only `add_ref` and `release`
move references, of the receiver, and only if they are set and recognise it.

* `Store.callee?`: the structure on which such a call acts.
* `Store.called`: the references that a call moves.
* `ends_call`: calls move these references and no others.
-/

namespace ObjectBoundary

namespace Store

/-- The tag that a wrapper keeps beside its structure. -/
def wrapperTag? (st : Store) (x : Id) : Option Tag := (st.get? x).bind fun n => n.entity.wrapperTag?

/-- The structure on which a call acts: its receiver, if the member is set and recognises it. -/
def callee? (st : Store) (s : Id) (position : Nat) (receiver : Option Id) : Option Id :=
  if st.isSet s position then
    receiver.filter fun r => decide (st.wrapperTag? r = st.wrapperTag? s)
  else none

/-- The references that calling a member of a shared structure moves. -/
def called (st : Store) (s : Id) (position : Nat) (receiver : Option Id) : Id → Int :=
  if position = Layout.addRef then credit (st.callee? s position receiver) 1
  else if position = Layout.release then credit (st.callee? s position receiver) (-1)
  else 0

variable {st : Store} {s x : Id} {n : Node}

theorem wrapperTag?_eq (hn : st.get? x = some n) : st.wrapperTag? x = n.entity.wrapperTag? := by
  rw [wrapperTag?, hn]
  rfl

/-- A wrapper keeps its tag. -/
theorem Continues.wrapperTag? {st' : Store} {t : Tag} (h : st.Continues st')
    (ht : st.wrapperTag? x = some t) : st'.wrapperTag? x = some t := by
  obtain ⟨n, hn, hentity⟩ := Option.bind_eq_some_iff.mp ht
  obtain ⟨n', hn', hc⟩ := h x n hn
  have hsame := hc.entity
  rw [Store.wrapperTag?_eq hn']
  cases he : n.entity <;> rw [he] at hentity hsame <;> cases hentity
  · cases he' : n'.entity <;> rw [he'] at hsame <;> first | contradiction | skip
    rw [← hsame.1]
    rfl
  · cases he' : n'.entity <;> rw [he'] at hsame <;> first | contradiction | skip
    rw [← hsame.1]
    rfl

theorem mem_reach_chain (st : Store) (position : Nat) (x : Id) :
    x ∈ st.reach position (st.chain x) := List.mem_cons_self

/-- A wrapper of which a reference was moved is one of a shared object. -/
theorem Upheld.hasRole {ys : List Id} {t : Tag} (h : st.Upheld ys) (hx : x ∈ ys)
    (ht : st.wrapperTag? x = some t) : st.HasRole x .sharedStructure := by
  obtain ⟨⟨name, e, live⟩, hn, -, hs⟩ := h x hx
  rw [wrapperTag?_eq hn] at ht
  refine ⟨_, hn, ?_⟩
  cases e with
  | sharedWrapper v => rfl
  | ownedWrapper v => cases hs
  | _ => cases ht

end Store

open Act

variable {w : World} {s : Id} {r : Option Id}

namespace Act

/-! ## Members of wrappers -/

/-- What a call may move, and what it moves it of. -/
def Calls (w w' : World) (y : Option Id) (d : Int) : Prop :=
  w.Turns w' (credit y d) ∧ ∀ x, y = some x → w'.store.HasRole x .sharedStructure

theorem Calls.of_quiet {w' : World} {y : Option Id} {d : Int} (hs : w.store.Sound)
    (h : w.Quiet w') (hy : y = none) : Calls w w' y d := by
  subst hy
  exact ⟨(h.turns hs).of_eq rfl, nofun⟩

theorem Calls.of_hasRole {w' : World} {x : Id} {d : Int} (h : w.Turns w' (credit (some x) d))
    (hr : w'.store.HasRole x .sharedStructure) : Calls w w' (some x) d := by
  refine ⟨h, ?_⟩
  intro y hy
  cases hy
  exact hr

/-- A reference to a wrapper is taken. -/
theorem ends_retain_calls {U : Failure → World → Prop} {x : Id} {t : Tag} (hs : w.store.Sound)
    (ht : w.store.wrapperTag? x = some t) :
    Ends (retain x) w (fun _ w' => Calls w w' (some x) 1) U := by
  refine ends_mono (ends_retain hs.earlier x) (fun _ w' h => ?_) fun _ _ hu => hu
  have hasc := h.ascends hs
  apply Calls.of_hasRole hasc.turns
  exact hasc.continues.hasRole (h.upheld.hasRole (Store.mem_reach_chain _ _ x) ht)

/-- A reference to a wrapper is given up. -/
theorem ends_release_calls {x : Id} {t : Tag} (hs : w.store.Sound)
    (ht : w.store.wrapperTag? x = some t) :
    Ends (release x) w (fun _ w' => Calls w w' (some x) (-1)) World.Disturbed := by
  refine ends_mono (ends_release hs x) (fun _ w' h => ?_) fun _ _ hu => hu
  have hdesc := h.1.descends hs
  apply Calls.of_hasRole (hdesc.turns hs)
  exact hdesc.continues.hasRole (h.1.upheld.hasRole (Store.mem_reach_chain _ _ x) ht)

/-- A base member acts on its receiver, if its class recognises it, and otherwise only looks. -/
theorem ends_baseMember_cases {α : Type} {t : Tag} {a : α} {f : Id → Act α}
    {P : α → World → Prop}
    (hno : ∀ w', w.Quiet w' →
      r.filter (fun x => decide (w.store.wrapperTag? x = some t)) = none → P a w')
    (hf : ∀ x w', w.Quiet w' → w.store.wrapperTag? x = some t →
      r.filter (fun x => decide (w.store.wrapperTag? x = some t)) = some x →
        Ends (f x) w' P fun _ _ => True) :
    Ends (baseMember t r a f) w P fun _ _ => True := by
  refine ends_bind (ends_mono (ends_of_quiet (respects_require _ _) (refl_of World.Quiet w))
    (fun _ _ h => h) fun _ _ _ => trivial) fun _ w₁ h₁ => ?_
  cases r with
  | none => exact ends_pure (hno w₁ h₁ rfl)
  | some x =>
    apply ends_bind (ends_recognises fun _ _ _ => trivial)
    intro b w₂ hpost
    obtain ⟨hq, n, hn, -, found, hfound, rfl⟩ := hpost
    have h₂ := trans_of World.Quiet h₁ hq
    have htag : w.store.wrapperTag? x = some found := by
      rw [← h₁.store, Store.wrapperTag?_eq hn, hfound]
    split
    · rename_i heq
      rw [beq_iff_eq] at heq
      subst heq
      exact hf x w₂ h₂ htag (by simp [htag])
    · rename_i hne
      rw [beq_iff_eq] at hne
      exact ends_pure (hno w₂ h₂ (by simp [htag, hne]))

theorem ends_baseMember {α : Type} {t : Tag} {a : α} {f : Id → Act α} {d : Int}
    (hs : w.store.Sound)
    (hf : ∀ x w₁, w.Quiet w₁ → w₁.store.wrapperTag? x = some t →
      Ends (f x) w₁ (fun _ w₂ => Calls w₁ w₂ (some x) d) fun _ _ => True) :
    Ends (baseMember t r a f) w
      (fun _ w' => Calls w w' (r.filter fun x => decide (w.store.wrapperTag? x = some t)) d)
      fun _ _ => True := by
  refine ends_baseMember_cases (fun w' hq hnone => .of_quiet hs hq hnone)
    fun x w' hq htag hsome => ?_
  rw [hsome]
  refine ends_mono (hf x w' hq (hq.store ▸ htag)) (fun _ w'' h => ?_) fun _ _ _ => trivial
  exact ⟨hq.trans_turns hs h.1, h.2⟩

theorem ends_retain_member (hs : w.store.Sound) {t : Tag} :
    Ends (baseMember t r () retain) w
      (fun _ w' => Calls w w' (r.filter fun x => decide (w.store.wrapperTag? x = some t)) 1)
      fun _ _ => True := by
  apply ends_baseMember hs
  intro x w₁ hq ht
  exact ends_retain_calls (hq.store ▸ hs) ht

theorem ends_release_member (hs : w.store.Sound) {t : Tag} :
    Ends (baseMember t r 0 release) w
      (fun _ w' => Calls w w' (r.filter fun x => decide (w.store.wrapperTag? x = some t)) (-1))
      fun _ _ => True := by
  apply ends_baseMember hs
  intro x w₁ hq ht
  exact ends_mono (ends_release_calls (hq.store ▸ hs) ht) (fun _ _ h => h) fun _ _ _ => trivial

theorem respects_askMember (q : Question) (t : Tag) :
    Respects World.Quiet (baseMember t r 0 (ask q)) w := by
  apply respects_bind (respects_require _ _)
  intro _ _ _
  cases r with
  | none => exact respects_pure _
  | some x =>
    apply respects_bind (respects_recognises t x)
    intro b _ _
    split
    · exact respects_ask q x
    · exact respects_pure _

/-! ## Members of structures -/

theorem respects_reply {x : Act Int32} (h : Respects World.Quiet x w) :
    Respects World.Quiet (x >>= fun n => pure (Reply.number n)) w :=
  respects_map h

/-- What a direct call moves, and that it moves it of structures. -/
def Calls.Moves (w w' : World) (δ : Id → Int) : Prop :=
  w.Turns w' δ ∧ ∀ z, δ z ≠ 0 → w'.store.HasRole z .sharedStructure

theorem Calls.toMoves {w' : World} {y : Option Id} {d : Int} (h : Calls w w' y d) :
    Calls.Moves w w' (credit y d) := by
  refine ⟨h.1, fun z hz => h.2 z ?_⟩
  by_contra hne
  exact hz (if_neg hne)

theorem Calls.Moves.of_quiet {w' : World} {δ : Id → Int} (hs : w.store.Sound) (h : w.Quiet w')
    (hδ : δ = 0) : Calls.Moves w w' δ := by
  subst hδ
  exact ⟨h.turns hs, fun z hz => absurd rfl hz⟩

/-- The members of a wrapper that count references, and the others. -/
theorem ends_sharedMember (hs : w.store.Sound) {n : Node} {v : SharedWrapper}
    (hn : w.store.get? s = some n) (hv : n.entity = .sharedWrapper v) {i : Nat}
    (hset : w.store.isSet s i = true) :
    Ends (sharedMember v.cls i r) w (fun _ w' => Calls.Moves w w' (w.store.called s i r))
      fun _ _ => True := by
  have htag : w.store.wrapperTag? s = some v.cls.tag := by rw [Store.wrapperTag?_eq hn, hv]; rfl
  have hcallee : w.store.callee? s i r =
      r.filter fun x => decide (w.store.wrapperTag? x = some v.cls.tag) := by
    rw [Store.callee?, if_pos hset, htag]
  have hquiet {x : Act Reply} (h : Respects World.Quiet x w) (hi : w.store.called s i r = 0) :
      Ends x w (fun _ w' => Calls.Moves w w' (w.store.called s i r)) fun _ _ => True :=
    ends_mono (ends_of_respects h) (fun _ _ hq => .of_quiet hs hq hi) fun _ _ _ => trivial
  match i with
  | 0 =>
    apply ends_bind (ends_retain_member hs)
    intro _ w₁ h₁
    apply ends_pure
    show Calls.Moves w w₁ (credit (w.store.callee? s 0 r) 1)
    rw [hcallee]
    exact h₁.toMoves
  | 1 =>
    apply ends_bind (ends_release_member hs)
    intro _ w₁ h₁
    apply ends_pure
    show Calls.Moves w w₁ (credit (w.store.callee? s 1 r) (-1))
    rw [hcallee]
    exact h₁.toMoves
  | 2 => exact hquiet (respects_reply (respects_askMember _ _)) rfl
  | 3 => exact hquiet (respects_reply (respects_askMember _ _)) rfl
  | index + 4 =>
    refine hquiet ?_ rfl
    dsimp only [sharedMember]
    split
    · exact respects_reply (respects_tableMember _ _ _)
    · exact respects_reply (respects_interfaceMember _ _ _)

theorem ends_sharedFarMember (hs : w.store.Sound) {x : Id} {i : Nat}
    (hset : w.store.isSet s i = true) (htag : w.store.wrapperTag? s = none) :
    Ends (sharedFarMember i x) w (fun _ w' => Calls.Moves w w' (w.store.called s i (some x)))
      fun e w' => World.Disturbed e w' ∨ w.Turns w' 0 := by
  apply ends_entity_bind
  intro n hn hlive
  obtain ⟨name, e, live⟩ := n
  cases e with
  | sharedFar f =>
    have hx : w.store.wrapperTag? x = none := by rw [Store.wrapperTag?_eq hn]; rfl
    have hcallee : w.store.callee? s i (some x) = some x := by
      rw [Store.callee?, if_pos hset, htag]
      simp [hx]
    have hrole : w.store.HasRole x .sharedStructure := ⟨_, hn, rfl⟩
    have hquiet {y : Act Reply} (h : Respects World.Quiet y w)
        (hi : w.store.called s i (some x) = 0) :
        Ends y w (fun _ w' => Calls.Moves w w' (w.store.called s i (some x)))
          fun e w' => World.Disturbed e w' ∨ w.Turns w' 0 :=
      ends_mono (ends_of_respects h) (fun _ _ hq => .of_quiet hs hq hi)
        fun _ _ hq => Or.inr (hq.turns hs)
    have hcalls {w' : World} {d : Int} (h : w.Turns w' (credit (some x) d)) :
        Calls w w' (some x) d := by
      refine ⟨h, ?_⟩
      intro _ heq
      cases heq
      exact h.continues.hasRole hrole
    match i with
    | 0 =>
      apply ends_bind (ends_retain_ascends hs x)
      intro _ w₁ h₁
      apply ends_pure
      show Calls.Moves w w₁ (credit (w.store.callee? s 0 (some x)) 1)
      rw [hcallee]
      exact (hcalls h₁.turns).toMoves
    | 1 =>
      refine ends_bind (ends_mono (ends_release_descends hs x) (fun _ _ h => h)
        fun _ _ hd => Or.inl hd) fun _ w₁ h₁ => ends_pure ?_
      show Calls.Moves w w₁ (credit (w.store.callee? s 1 (some x)) (-1))
      rw [hcallee]
      exact (hcalls (h₁.turns hs)).toMoves
    | 2 => exact hquiet (respects_reply (respects_ask _ x)) rfl
    | 3 => exact hquiet (respects_reply (respects_ask _ x)) rfl
    | index + 4 => exact hquiet (respects_reply (respects_farAnswer x _ _)) rfl
  | _ => exact ends_refuse

/-- A call of a member of a shared structure. -/
theorem ends_call (hs : w.store.Sound) (hr : w.store.HasRole s .sharedStructure) (i : Nat) :
    Ends (call s i r) w (fun _ w' => Calls.Moves w w' (w.store.called s i r))
      fun e w' => World.Disturbed e w' ∨ w.Turns w' 0 := by
  obtain ⟨m, hm, hrole⟩ := hr
  refine ends_entity_bind fun n hn hlive => ?_
  cases hm.symm.trans hn
  refine ends_bind (P := fun t w' => w' = w ∧ m.entity.struct? = some t)
    (ends_ofOption fun t ht => ⟨rfl, ht⟩) ?_
  intro t w hpost
  obtain ⟨rfl, ht⟩ := hpost
  have hset := Store.isSet_eq hm ht i
  split
  · rename_i hi
    rw [hi] at hset
    cases he : m.entity with
    | sharedWrapper v => exact ends_contained (ends_sharedMember hs hm he hset)
    | sharedFar f =>
      cases r with
      | none => exact fun _ => trivial
      | some x =>
        have htag : w.store.wrapperTag? s = none := by rw [Store.wrapperTag?_eq hm, he]; rfl
        exact ends_sharedFarMember hs hset htag
    | ownedWrapper v => rw [he] at hrole; cases hrole
    | ownedFar f => rw [he] at hrole; cases hrole
    | _ => exact ends_refuse
  · rename_i hi
    rw [Bool.not_eq_true] at hi
    rw [hi] at hset
    refine ends_pure (.of_quiet hs (refl_of World.Quiet w) ?_)
    simp [Store.called, Store.callee?, hset]

/-- A call of a member of an owned structure leaves all references alone. -/
theorem respects_call (hr : w.store.HasRole s .ownedStructure) (i : Nat) :
    Respects World.Still (call s i r) w := by
  obtain ⟨m, hm, hrole⟩ := hr
  apply respects_entity_bind
  intro n hn hlive
  cases hm.symm.trans hn
  refine respects_bind (respects_ofOption _ _) fun t w₁ _ => ?_
  split
  · cases he : m.entity with
    | ownedWrapper v =>
      apply respects_contained
      match i with
      | 0 =>
        refine respects_map ?_
        apply respects_bind (still_of_quiet (respects_require _ _))
        intro _ _ _
        cases r with
        | none => exact respects_pure _
        | some x =>
          apply respects_bind (still_of_quiet (respects_recognises _ x))
          intro b _ _
          split
          · exact respects_dispose x
          · exact respects_pure _
      | index + 1 => exact still_of_quiet (respects_reply (respects_interfaceMember _ _ _))
    | ownedFar f =>
      refine respects_bind (respects_ofOption _ _) fun x _ _ => ?_
      apply respects_entity_bind
      intro n hn hlive
      cases n.entity with
      | ownedFar f =>
        match i with
        | 0 => exact respects_map (respects_dispose x)
        | index + 1 => exact still_of_quiet (respects_reply (respects_farAnswer x _ _))
      | _ => exact respects_refuse _
    | sharedWrapper v => rw [he] at hrole; cases hrole
    | sharedFar f => rw [he] at hrole; cases hrole
    | _ => exact respects_refuse _
  · exact respects_pure _

end Act

end ObjectBoundary
