import ObjectBoundary.Act.Answers
import ObjectBoundary.Act.Disposal
import ObjectBoundary.Act.References
import ObjectBoundary.Proofs.Quiet
import ObjectBoundary.Proofs.References.Reach

/-!
# Going down link by link

What goes down a chain does something at one entity and goes on at the one below it, in turn through
wrappers and proxies. Nothing in this tells that it ever ends. It does because links lead to earlier
entities and stay as they are on the way down.

* `Act.Walk`: the operations that go down a chain.
* `Act.Walk.visit`: what an operation does at one entity, and where it goes on.
* `Act.GoesDown`: going on at the entity below, once or not at all.
* `Act.Walk.act_eq_visit`: an operation on an entity visits it and goes on as the same operation.
* `Act.Walk.Visits`, `Act.Walk.exists_visits`: the entities that an operation visits.
-/

namespace ObjectBoundary

theorem Store.below?_of_entity {st : Store} {x y : Id} {n : Node} {e : Entity}
    (hn : st.get? x = some n) (he : n.entity = e) (hy : e.below? = some y) :
    st.below? x = some y := (below?_eq_some hn).trans (he ▸ hy)

namespace Act

variable {α β γ : Type}

/-- Acts that do the same with an entity do the same once they have read it. -/
theorem entity_bind_congr {x : Id} {f g : Entity → Act α} {phase : Phase} {w : World}
    (h : ∀ n, w.store.get? x = some n → f n.entity phase w = g n.entity phase w) :
    (entity x >>= f) phase w = (entity x >>= g) phase w := by
  have hends : Ends (entity x) w (fun e w' => f e phase w' = g e phase w') fun _ _ => True :=
    ends_entity fun n hn _ => h n hn
  rw [bind_apply, bind_apply]
  rcases he : entity x phase w with ⟨e | _ | _ | _, w'⟩
  · exact ends_of_done hends he
  all_goals rfl

/-- The operations that go down a chain: references are taken, given up (which is what dropping a
handle does) and asked about, owned objects are disposed of, and interface functions answer. -/
inductive Walk : Type → Type 1
  | retain : Walk Unit
  | release : Walk Int32
  | dispose : Walk Unit
  | ask (q : Question) : Walk Int32
  | answer (index : Nat) : Walk Int32

namespace Walk

/-- The operation on an entity. -/
def act : {α : Type} → Walk α → Id → Act α
  | _, retain => Act.retain
  | _, release => Act.release
  | _, dispose => Act.dispose
  | _, ask q => Act.ask q
  | _, answer index => Act.answer index

/-- The operation on the first entity of a chain. -/
def along : {α : Type} → Walk α → List Id → Act α
  | _, retain => retainAlong
  | _, release => releaseAlong
  | _, dispose => disposeAlong
  | _, ask q => askAlong q
  | _, answer index => answerAlong index

/-! ## Visits of one entity -/

/-- What is done at an entity, where `go` goes on at another one: directly at the object of a
wrapper, and through a function member at the structure of a proxy. -/
def visit : {α : Type} → Walk α → (Id → Act α) → Id → Act α
  | _, retain, go, x => do
    match ← entity x with
    | .sharedObject _ => raise x
    | .sharedWrapper w => do
      go w.object
      raise x
    | .sharedProxy p => do
      through p.target Layout.addRef () (go p.target)
      raise x
    | .sharedFar f => do
      emit (.called x "add_ref")
      put x (.sharedFar { f with references := f.references + 1 })
    | _ => refuse .wrongKind
  | _, release, go, x => do
    match ← entity x with
    | .sharedObject _ => do
      let last ← lower x
      if last then
        retire x
        emit (.dropped x)
      pure (truth last)
    | .sharedWrapper w => do
      discard (go w.object)
      let last ← lower x
      if last then
        retire x
        requireRunning
      pure (truth last)
    | .sharedProxy p => do
      discard (through p.target Layout.release 0 (go p.target))
      let last ← lower x
      if last then
        retire x
        requireRunning
      pure (truth last)
    | .sharedFar f => do
      emit (.called x "release")
      let references := f.references - 1
      put x (.sharedFar { f with references, freed := f.freed || references == 0 })
      pure (if references = 0 then f.answers.truthy else 0)
    | _ => refuse .wrongKind
  | _, dispose, go, x => do
    match ← entity x with
    | .ownedObject _ => do
      retire x
      emit (.dropped x)
    | .ownedWrapper w => do
      retire x
      requireRunning
      match w.object with
      | none => pure ()
      | some o => if w.owns then go o
    | .ownedProxy p => do
      retire x
      requireRunning
      match p.target with
      | none => pure ()
      | some s => through s Layout.del () (go s)
    | .ownedFar f => do
      emit (.called x "del")
      put x (.ownedFar { f with deletions := f.deletions + 1 })
    | _ => refuse .wrongKind
  | _, ask q, go, x => do
    match ← entity x with
    | .sharedObject o => pure (truth (o.count.answer q))
    | .sharedWrapper w => return truth ((← go w.object) != 0)
    | .sharedProxy p =>
      return truth ((← through p.target (questionPosition q) 0 (go p.target)) != 0)
    | .sharedFar f => do
      emit (.called x (questionName q))
      pure (f.answer q)
    | _ => refuse .wrongKind
  | _, answer index, go, x => do
    match ← entity x with
    | .sharedObject o => ofOption .wrongKind (o.object.behavior.answer? index)
    | .ownedObject o => ofOption .wrongKind (o.behavior.answer? index)
    | .sharedWrapper w => do
      match w.cls with
      | .table _ _ => pure ()
      | _ => requireRunning
      requireRunning
      go w.object
    | .ownedWrapper w => do
      requireRunning
      requireRunning
      match w.object with
      | none => refuse .unknown
      | some o => go o
    | .sharedProxy p => do
      requireRunning
      throughOffered p.target (Layout.sharedFirst + index) 0 (go p.target)
    | .ownedProxy p => do
      requireRunning
      match p.target with
      | none => pure 0
      | some s => throughOffered s (Layout.ownedFirst + index) 0 (go s)
    | .sharedFar f => farAnswer x f.answers index
    | .ownedFar f => farAnswer x f.answers index
    | _ => refuse .wrongKind

/-- Going along a list is visiting its first entity and going along the list of the next one. -/
theorem along_eq_visit (op : Walk α) (lists : Id → List Id) (x : Id) (phase : Phase) (w : World) :
    op.along (x :: (w.store.below? x).elim [] lists) phase w =
      op.visit (fun y => op.along (lists y)) x phase w := by
  cases op
  all_goals
    refine entity_bind_congr fun n hn => ?_
    rw [Store.below?_eq_some hn]
    cases n.entity with
    | ownedWrapper v => rcases v with ⟨_, _ | _, _, _ | _⟩ <;> rfl
    | ownedProxy p => rcases p with ⟨_, _ | _⟩ <;> rfl
    | _ => rfl

end Walk

/-! ## Going on at most once -/

/-- What is done while `go` is left open goes on at one entity, to which `x` is linked, while all
links are as they were, or it does not go on. -/
inductive GoesDown (links : Id → Option Id) (x : Id) (phase : Phase)
    (f : (Id → Act α) → Outcome β × World) : Prop
  | stays {r : Outcome β × World} : (∀ go, f go = r) → GoesDown links x phase f
  | goes {y : Id} {w : World} {k : Outcome α × World → Outcome β × World} : links x = some y →
    w.store.below? = links → (∀ go, f go = k (go y phase w)) → GoesDown links x phase f

section GoesDown

variable {links : Id → Option Id} {x y : Id} {phase : Phase} {w : World}

theorem goesDown_const (r : Outcome β × World) :
    GoesDown (α := α) links x phase fun _ => r := .stays fun _ => rfl

theorem goesDown_go (hy : links x = some y) (hw : w.store.below? = links) :
    GoesDown links x phase fun go : Id → Act α => go y phase w :=
  .goes (k := id) hy hw fun _ => rfl

/-- What follows makes something of the result. -/
theorem GoesDown.followed {f : (Id → Act α) → Outcome β × World}
    (h : GoesDown links x phase f) (k : Outcome β × World → Outcome γ × World) :
    GoesDown links x phase fun go => k (f go) := by
  cases h with
  | stays hf => exact .stays fun go => congrArg k (hf go)
  | @goes y w k' hy hw hf => exact .goes (k := k ∘ k') hy hw fun go => congrArg k (hf go)

theorem GoesDown.bind {f : (Id → Act α) → Act β} (h : GoesDown links x phase fun go => f go phase w)
    (g : β → Act γ) : GoesDown links x phase fun go => (f go >>= g) phase w :=
  h.followed fun r => ((fun _ _ => r : Act β) >>= g) phase w

theorem GoesDown.contained {f : (Id → Act α) → Act β}
    (h : GoesDown links x phase fun go => f go phase w) :
    GoesDown links x phase fun go => Act.contained (f go) phase w :=
  h.followed fun r => Act.contained (fun _ _ => r) phase w

/-- What comes first does not go on, and the rest does as it may from there. -/
theorem goesDown_bind {a : Act γ} {f : γ → (Id → Act α) → Act β}
    (h : ∀ c w', a phase w = (.done c, w') → GoesDown links x phase fun go => f c go phase w') :
    GoesDown links x phase fun go => (a >>= fun c => f c go) phase w := by
  simp only [bind_apply]
  rcases ha : a phase w with ⟨c | _ | _ | _, w'⟩
  · exact h c w' ha
  all_goals exact goesDown_const _

theorem goesDown_entity_bind {f : Entity → (Id → Act α) → Act β}
    (h : ∀ n, w.store.get? x = some n → GoesDown links x phase fun go => f n.entity go phase w) :
    GoesDown links x phase fun go => (entity x >>= fun e => f e go) phase w := by
  refine goesDown_bind fun e w' he => ?_
  have hends : Ends (entity x) w
      (fun e w' => ∃ n, w.store.get? x = some n ∧ n.entity = e ∧ w = w') fun _ _ => True :=
    ends_entity fun n hn _ => ⟨n, hn, rfl, rfl⟩
  obtain ⟨n, hn, rfl, rfl⟩ := ends_of_done hends he
  exact h n hn

/-- What only looks keeps all links. -/
theorem goesDown_quiet_bind {a : Act γ} {f : γ → (Id → Act α) → Act β}
    (ha : Respects World.Quiet a w) (hw : w.store.below? = links)
    (h : ∀ c w', w'.store.below? = links → GoesDown links x phase fun go => f c go phase w') :
    GoesDown links x phase fun go => (a >>= fun c => f c go) phase w := by
  refine goesDown_bind fun c w' hc => h c w' ?_
  have hquiet := ha phase
  rw [hc] at hquiet
  rw [hquiet.store, hw]

theorem goesDown_retire_bind {f : (Id → Act α) → Act β} {z : Id} (hw : w.store.below? = links)
    (h : ∀ w', w'.store.below? = links → GoesDown links x phase fun go => f go phase w') :
    GoesDown links x phase fun go => (retire z >>= fun _ => f go) phase w := by
  refine goesDown_bind fun c w' hc => h w' ?_
  cases hc
  have hkeeps (n : Node) : { n with live := false }.entity.below? = n.entity.below? := rfl
  exact (Store.below?_modify w.store z hkeeps).trans hw

theorem goesDown_through (hy : links x = some y) (hw : w.store.below? = links) (position : Nat)
    (absent : α) :
    GoesDown links x phase fun go : Id → Act α => through y position absent (go y) phase w := by
  refine goesDown_quiet_bind (respects_struct y) hw fun t w' hw' => ?_
  cases t.isSet position with
  | true => exact (goesDown_go hy hw').contained
  | false => exact goesDown_const _

theorem goesDown_throughOffered (hy : links x = some y) (hw : w.store.below? = links)
    (position : Nat) (absent : α) :
    GoesDown links x phase fun go : Id → Act α =>
      throughOffered y position absent (go y) phase w := by
  refine goesDown_quiet_bind (respects_struct y) hw fun t w' hw' => ?_
  unfold calling
  cases t.offers position with
  | true =>
    cases t.hasMember position with
    | true => exact (goesDown_go hy hw').contained
    | false => exact goesDown_const _
  | false => exact goesDown_const _

end GoesDown

namespace Walk

variable {x : Id} {phase : Phase} {w : World}

theorem goesDown_retain :
    GoesDown w.store.below? x phase fun go => retain.visit go x phase w := by
  refine goesDown_entity_bind fun n hn => ?_
  cases he : n.entity with
  | sharedWrapper v => exact (goesDown_go (Store.below?_of_entity hn he rfl) rfl).bind _
  | sharedProxy p => exact (goesDown_through (Store.below?_of_entity hn he rfl) rfl _ _).bind _
  | _ => exact goesDown_const _

theorem goesDown_release :
    GoesDown w.store.below? x phase fun go => release.visit go x phase w := by
  refine goesDown_entity_bind fun n hn => ?_
  cases he : n.entity with
  | sharedWrapper v => exact ((goesDown_go (Store.below?_of_entity hn he rfl) rfl).bind _).bind _
  | sharedProxy p =>
    exact ((goesDown_through (Store.below?_of_entity hn he rfl) rfl _ _).bind _).bind _
  | _ => exact goesDown_const _

/-- The link is read before the entity ceases to exist. -/
theorem goesDown_dispose :
    GoesDown w.store.below? x phase fun go => dispose.visit go x phase w := by
  refine goesDown_entity_bind fun n hn => ?_
  cases he : n.entity with
  | ownedWrapper v =>
    refine goesDown_retire_bind rfl fun w₁ h₁ => ?_
    refine goesDown_quiet_bind respects_requireRunning h₁ fun _ w₂ h₂ => ?_
    cases ho : v.object with
    | none => exact goesDown_const _
    | some o =>
      cases v.owns with
      | true => exact goesDown_go (Store.below?_of_entity hn he ho) h₂
      | false => exact goesDown_const _
  | ownedProxy p =>
    refine goesDown_retire_bind rfl fun w₁ h₁ => ?_
    refine goesDown_quiet_bind respects_requireRunning h₁ fun _ w₂ h₂ => ?_
    cases ht : p.target with
    | none => exact goesDown_const _
    | some t => exact goesDown_through (Store.below?_of_entity hn he ht) h₂ _ _
  | _ => exact goesDown_const _

theorem goesDown_ask (q : Question) :
    GoesDown w.store.below? x phase fun go => (ask q).visit go x phase w := by
  refine goesDown_entity_bind fun n hn => ?_
  cases he : n.entity with
  | sharedWrapper v => exact (goesDown_go (Store.below?_of_entity hn he rfl) rfl).bind _
  | sharedProxy p => exact (goesDown_through (Store.below?_of_entity hn he rfl) rfl _ _).bind _
  | _ => exact goesDown_const _

theorem goesDown_answer (index : Nat) :
    GoesDown w.store.below? x phase fun go => (answer index).visit go x phase w := by
  refine goesDown_entity_bind fun n hn => ?_
  cases he : n.entity with
  | sharedWrapper v =>
    have hobject {w₁ : World} (h₁ : w₁.store.below? = w.store.below?) :
        GoesDown w.store.below? x phase fun go : Id → Act Int32 =>
          (requireRunning >>= fun _ => go v.object) phase w₁ :=
      goesDown_quiet_bind respects_requireRunning h₁ fun _ w₂ h₂ =>
        goesDown_go (Store.below?_of_entity hn he rfl) h₂
    -- Only the members of tables do not check for shutdown themselves.
    cases hc : v.cls with
    | table width isWidth => simpa only [hc] using hobject rfl
    | _ =>
      simpa only [hc] using
        goesDown_quiet_bind respects_requireRunning rfl fun _ w₁ h₁ => hobject h₁
  | ownedWrapper v =>
    refine goesDown_quiet_bind respects_requireRunning rfl fun _ w₁ h₁ => ?_
    refine goesDown_quiet_bind respects_requireRunning h₁ fun _ w₂ h₂ => ?_
    cases ho : v.object with
    | none => exact goesDown_const _
    | some o => exact goesDown_go (Store.below?_of_entity hn he ho) h₂
  | sharedProxy p =>
    exact goesDown_quiet_bind respects_requireRunning rfl fun _ w₁ h₁ =>
      goesDown_throughOffered (Store.below?_of_entity hn he rfl) h₁ _ _
  | ownedProxy p =>
    refine goesDown_quiet_bind respects_requireRunning rfl fun _ w₁ h₁ => ?_
    cases ht : p.target with
    | none => exact goesDown_const _
    | some y => exact goesDown_throughOffered (Store.below?_of_entity hn he ht) h₁ _ _
  | _ => exact goesDown_const _

/-- At an entity, an operation goes on at the one below it, once or not at all. -/
theorem goesDown_visit (op : Walk α) (x : Id) (phase : Phase) (w : World) :
    GoesDown w.store.below? x phase fun go => op.visit go x phase w := by
  cases op with
  | retain => exact goesDown_retain
  | release => exact goesDown_release
  | dispose => exact goesDown_dispose
  | ask q => exact goesDown_ask q
  | answer index => exact goesDown_answer index

/-! ## Whole walks -/

/-- Going on at the entity below is going along its chain. -/
theorem act_eq_visit_along (op : Walk α) {w : World}
    (earlier : ∀ x y, w.store.below? x = some y → y < x) (x : Id) (phase : Phase) :
    op.act x phase w = op.visit (fun y => op.along (w.store.chain y)) x phase w := by
  rw [← along_eq_visit, ← Store.chain_eq_cons earlier]
  cases op <;> rfl

/-- An operation on an entity visits it and goes on as the same operation on another one. -/
theorem act_eq_visit (op : Walk α) {w : World}
    (earlier : ∀ x y, w.store.below? x = some y → y < x) (x : Id) (phase : Phase) :
    op.act x phase w = op.visit op.act x phase w := by
  rw [op.act_eq_visit_along earlier]
  cases op.goesDown_visit x phase w with
  | stays hf => rw [hf, hf]
  | goes hy hw hf =>
    rw [hf, hf, ← Store.chain_congr hw]
    cases op <;> rfl

/-- Starting from an entity, an operation visits some entities one after the other, and then it
ends: at each of them but the last it goes on once, at the entity that this one is linked to, and
all links are still as they were. -/
inductive Visits (op : Walk α) (phase : Phase) : Id → World → List Id → Outcome α × World → Prop
  | last {x : Id} {w : World} {r : Outcome α × World} : (∀ go, op.visit go x phase w = r) →
    Visits op phase x w [x] r
  | next {x y : Id} {w w' : World} {k : Outcome α × World → Outcome α × World} {ys : List Id}
    {r : Outcome α × World} : w.store.below? x = some y → w'.store.below? = w.store.below? →
    (∀ go, op.visit go x phase w = k (go y phase w')) → Visits op phase y w' ys r →
    Visits op phase x w (x :: ys) (k r)

/-- Where links lead to earlier entities, an operation ends after it has visited the upper part of
the chain. -/
theorem exists_visits (op : Walk α) {w : World}
    (earlier : ∀ x y, w.store.below? x = some y → y < x) (x : Id) (phase : Phase) :
    ∃ xs, op.Visits phase x w xs (op.act x phase w) ∧ xs <+: w.store.chain x := by
  induction x using Nat.strongRecOn generalizing w with
  | ind x ih =>
    have hchain := Store.chain_eq_cons earlier x
    rw [op.act_eq_visit earlier]
    cases op.goesDown_visit x phase w with
    | stays hf =>
      refine ⟨[x], .last fun go => (hf go).trans (hf _).symm, ?_⟩
      rw [hchain]
      exact List.prefix_append [x] _
    | @goes y w' k hy hw hf =>
      obtain ⟨ys, hvisits, hprefix⟩ := ih y (earlier x y hy) (hw.symm ▸ earlier)
      refine ⟨x :: ys, ?_, ?_⟩
      · rw [hf]
        exact .next hy hw hf hvisits
      · rw [hchain, hy, Option.elim_some, ← Store.chain_congr hw]
        exact List.cons_prefix_cons.mpr ⟨rfl, hprefix⟩

end Walk

end Act

end ObjectBoundary
