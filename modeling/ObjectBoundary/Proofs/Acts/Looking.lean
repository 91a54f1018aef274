import ObjectBoundary.Act.Members
import ObjectBoundary.Inspection
import ObjectBoundary.Proofs.Quiet

/-!
# Acts that only look

Asking about references, asking an object, recognising a wrapper and looking at one leave all
entities alone, however they end.
-/

namespace ObjectBoundary.Act

variable {α : Type} {w : World}

theorem respects_called {x : Id} {member : String} (h : member ≠ "add_ref" ∧ member ≠ "release") :
    Respects World.Quiet (emit (.called x member)) w := by
  refine respects_emit (fun z => ?_) fun z => nofun
  simp [Event.change?, h.1, h.2]

/-! ## Questions and values -/

theorem respects_askAlong (q : Question) (xs : List Id) :
    Respects World.Quiet (askAlong q xs) w := by
  induction xs generalizing w with
  | nil => exact respects_refuse _
  | cons x below ih =>
    apply respects_entity_bind
    intro n hn hlive
    cases n.entity with
    | sharedObject o => exact respects_pure _
    | sharedWrapper v => exact respects_map ih
    | sharedProxy p =>
      exact respects_map (respects_through fun _ _ => ih)
    | sharedFar f =>
      have hname : questionName q ≠ "add_ref" ∧ questionName q ≠ "release" := by
        cases q <;> decide
      exact respects_map (respects_called hname)
    | _ => exact respects_refuse _

theorem respects_ask (q : Question) (x : Id) : Respects World.Quiet (ask q x) w :=
  respects_bind (respects_chain x) fun _ _ _ => respects_askAlong q _

theorem respects_farAnswer (x : Id) (a : FarAnswers) (index : Nat) :
    Respects World.Quiet (farAnswer x a index) w := by
  intro phase
  unfold farAnswer
  cases h : a.value? index with
  | none => exact refl _
  | some v =>
    have hname : v.1 ≠ "add_ref" ∧ v.1 ≠ "release" := by
      match index, h with
      | 0, h =>
        have hv : "get_value" = v.1 := congrArg Prod.fst (Option.some.inj h)
        exact hv ▸ ⟨by decide, by decide⟩
      | 1, h =>
        have hv : "get_other_value" = v.1 := congrArg Prod.fst (Option.some.inj h)
        exact hv ▸ ⟨by decide, by decide⟩
    obtain ⟨member, value⟩ := v
    exact respects_bind (respects_called hname) (fun _ _ _ => respects_pure value) phase

theorem respects_answerAlong (index : Nat) (xs : List Id) :
    Respects World.Quiet (answerAlong index xs) w := by
  induction xs generalizing w with
  | nil => exact respects_refuse _
  | cons x below ih =>
    refine respects_entity_bind fun n hn hlive => ?_
    cases n.entity with
    | sharedObject o => exact respects_ofOption _ _
    | ownedObject o => exact respects_ofOption _ _
    | sharedWrapper v =>
      have hrest {w' : World} : Respects World.Quiet
          (requireRunning >>= fun _ => answerAlong index below) w' :=
        respects_bind respects_requireRunning fun _ _ _ => ih
      dsimp only
      cases v.cls with
      | table _ _ => exact hrest
      | _ => exact respects_bind respects_requireRunning fun _ _ _ => hrest
    | ownedWrapper v =>
      exact respects_bind respects_requireRunning fun _ _ _ =>
        respects_bind respects_requireRunning fun _ _ _ => ih
    | sharedProxy p =>
      exact respects_bind respects_requireRunning fun _ _ _ => respects_throughOffered fun _ _ => ih
    | ownedProxy p =>
      refine respects_bind respects_requireRunning fun _ _ _ => ?_
      cases p.target with
      | none => exact respects_pure _
      | some s => exact respects_throughOffered fun _ _ => ih
    | sharedFar f => exact respects_farAnswer _ _ _
    | ownedFar f => exact respects_farAnswer _ _ _
    | _ => exact respects_refuse _

theorem respects_answer (index : Nat) (x : Id) : Respects World.Quiet (answer index x) w :=
  respects_bind (respects_chain x) fun _ _ _ => respects_answerAlong index _

/-! ## Recognising wrappers -/

theorem respects_wrapperTag (s : Id) : Respects World.Quiet (wrapperTag s) w :=
  respects_bind (respects_entity s) fun _ _ _ => respects_ofOption _ _

theorem respects_recognises (t : Tag) (s : Id) : Respects World.Quiet (recognises t s) w :=
  respects_bind (respects_wrapperTag s) fun _ _ _ =>
    respects_map (respects_require _ _)

/-- What is recognised has the tag that was asked for. -/
theorem ends_recognises {t : Tag} {s : Id} {U : Failure → World → Prop}
    (hU : ∀ e w', World.Quiet w w' → U e w') :
    Ends (recognises t s) w
      (fun b w' => World.Quiet w w' ∧ ∃ n, w.store.get? s = some n ∧ n.live = true ∧
        ∃ found, n.entity.wrapperTag? = some found ∧ b = (found == t)) U := by
  unfold recognises wrapperTag
  rw [bind_assoc]
  apply ends_entity_bind
  intro n hn hlive
  refine ends_bind (P := fun found w' => w' = w ∧ n.entity.wrapperTag? = some found)
    (ends_ofOption fun found hf => ⟨rfl, hf⟩) ?_
  intro found w hpost
  obtain ⟨rfl, hf⟩ := hpost
  refine ends_bind (P := fun _ w' => World.Quiet w w') ?_ fun _ w' hq =>
    ends_pure ⟨hq, n, hn, hlive, found, hf, rfl⟩
  exact ends_mono (ends_of_respects (respects_require _ _)) (fun _ _ hq => hq) fun e w' => hU e w'

theorem respects_objectOf (t : Tag) (s : Id) : Respects World.Quiet (objectOf t s) w := by
  apply respects_bind respects_requireRunning
  intro _ _ _
  apply respects_bind (respects_recognises t s)
  intro b _ _
  split
  · exact respects_map (respects_entity s)
  · exact respects_pure _

theorem respects_interfaceMember (t : Tag) (r : Option Id) (index : Nat) :
    Respects World.Quiet (interfaceMember t r index) w := by
  refine respects_bind respects_requireRunning fun _ _ _ => ?_
  apply respects_bind (respects_require _ _)
  intro _ _ _
  cases r with
  | none => exact respects_pure _
  | some s =>
    apply respects_bind (respects_objectOf t s)
    intro o _ _
    cases o with
    | none => exact respects_pure _
    | some object => exact respects_answer index object

theorem respects_tableMember (t : Tag) (r : Option Id) (index : Nat) :
    Respects World.Quiet (tableMember t r index) w := by
  cases r with
  | none => exact respects_pure _
  | some s =>
    refine respects_bind (respects_objectOf t s) fun o _ _ => ?_
    cases o with
    | none => exact respects_pure _
    | some object => exact respects_answer index object

/-! ## Looking at wrappers -/

theorem respects_sharedInspect (c : SharedClass) (s : Id) :
    Respects World.Quiet (c.inspect s) w := by
  apply respects_bind (respects_recognises c.tag s)
  intro b _ _
  split
  · apply respects_entity_bind
    intro n hn hlive
    cases n.entity with
    | sharedWrapper v =>
      apply respects_bind (respects_ask _ s)
      intro _ _ _
      refine respects_bind (respects_ask _ s) fun _ _ _ => ?_
      exact respects_map respects_get
    | _ => exact respects_refuse _
  · exact respects_pure _

theorem respects_ownedInspect (c : OwnedClass) (s : Id) :
    Respects World.Quiet (c.inspect s) w := by
  refine respects_bind (respects_recognises c.tag s) fun b _ _ => ?_
  split
  · refine respects_entity_bind fun n hn hlive => ?_
    cases n.entity with
    | ownedWrapper v => exact respects_pure _
    | _ => exact respects_refuse _
  · exact respects_pure _

end ObjectBoundary.Act
