import ObjectBoundary.Proofs.Acts.Exchange
import ObjectBoundary.Proofs.Acts.Exhaustion
import ObjectBoundary.Owned.Proxy

/-!
# Transfers that fail

Whoever takes over a reference or the ownership of a structure first checks that shutdown has not
begun, that the class knows the structure, and that the structure has something to give. Only then
does it change anything. So if a check fails, whether it unwinds or not, all is as before.

* `World.Untouched`: nothing but failed checks was logged, and nothing else has happened.
* `Act.Fails`: an act that comes to nothing or unwinds, and touches nothing.
* `fails_requireRunning`: where the check of the start of shutdown unwinds.
* `fails_unwrap`, `fails_takeBack`, `fails_takeBack_borrowed`: where a class does not know a
  structure, or its wrapper does not own its object.
* `makes_takeBack`, `makes_adopt`: what is left where nothing fails.
* `refuses_unwrap`, `refuses_receive`: where something below a structure is missing.
-/

namespace ObjectBoundary

variable {α β : Type} {w : World}

/-! ## Worlds that only logged reports -/

/-- The report of a failed check, or of an environment that holds no settings. -/
def Event.isReport : Event → Bool
  | .failed _ | .fellBack _ => true
  | _ => false

/-- Nothing but reports was logged, and nothing else has happened. -/
structure World.Untouched (w w' : World) : Prop where
  quiet : w.Quiet w'
  log : ∃ reports, w'.log = w.log ++ reports ∧ ∀ e ∈ reports, e.isReport = true

theorem World.Quiet.untouched {w' : World} (h : w.Quiet w') (hlog : w'.log = w.log) :
    w.Untouched w' :=
  ⟨h, [], by rw [hlog, List.append_nil], fun _ he => nomatch he⟩

theorem World.Quiet.untouched_report {w' : World} {e : Event} (h : w.Quiet w')
    (hlog : w'.log = w.log ++ [e]) (he : e.isReport = true) : w.Untouched w' :=
  ⟨h, [e], hlog, fun e' he' => by rw [List.mem_singleton.mp he', he]⟩

instance : IsPreorder World World.Untouched where
  refl w := World.Quiet.untouched (refl_of World.Quiet w) rfl
  trans _ _ _ h h' := by
    obtain ⟨reports, hlog, hreports⟩ := h.log
    obtain ⟨reports', hlog', hreports'⟩ := h'.log
    refine ⟨trans_of World.Quiet h.quiet h'.quiet, reports ++ reports', ?_, ?_⟩
    · rw [hlog', hlog, List.append_assoc]
    · intro e he
      exact (List.mem_append.mp he).elim (hreports e) (hreports' e)

namespace Act

theorem untouched_settings : Respects World.Untouched settings w := by
  intro phase
  have hquiet := respects_settings (w := w) phase
  cases h : w.settings with
  | some s =>
    rw [settings_apply_of_some h]
    exact refl_of World.Untouched w
  | none =>
    simp only [settings, bind_apply, get, h] at hquiet ⊢
    rcases hresolve : resolve w.environment with ⟨s, _ | e⟩ <;> rw [hresolve] at hquiet
    · exact hquiet.untouched rfl
    · exact hquiet.untouched_report rfl rfl

theorem untouched_check (failure : Failure) : Respects World.Untouched (check failure) w := by
  have hemit : Respects World.Untouched (emit (.failed failure)) w := by
    intro phase
    have hquiet := respects_emit (w := w) (e := .failed failure) (fun _ => rfl)
      (fun _ h => nomatch h) phase
    exact hquiet.untouched_report rfl rfl
  refine respects_bind hemit fun _ _ _ => respects_bind untouched_settings fun s _ _ => ?_
  split
  · exact respects_unwind _
  · exact respects_pure _

theorem untouched_requireRunning : Respects World.Untouched requireRunning w := by
  refine respects_bind untouched_settings fun s _ _ => ?_
  split
  · refine respects_bind respects_get fun w' _ _ => ?_
    unfold require
    split
    · exact respects_pure _
    · exact untouched_check _
  · exact respects_pure _

theorem untouched_wrapperTag (s : Id) : Respects World.Untouched (wrapperTag s) w :=
  respects_bind (respects_entity s) fun _ _ _ => respects_ofOption _ _

/-! ## Acts that fail -/

/-- The act is done with a value that stands for nothing, or it unwinds, and it touches nothing. -/
def Fails (x : Act α) (w : World) (nothing : α) : Prop :=
  ∃ w', w.Untouched w' ∧
    (x .normal w = (.done nothing, w') ∨ ∃ failure, x .normal w = (.unwound failure, w'))

variable {a : α} {b : β} {x : Act β} {f : β → Act α}

theorem fails_bind (hx : Yields x w b) (hu : Respects World.Untouched x w)
    (hf : ∀ w', w.Untouched w' → Fails (f b) w' a) : Fails (x >>= f) w a := by
  obtain ⟨w', hw', -⟩ := hx .normal
  have hfirst := hu .normal
  rw [hw'] at hfirst
  obtain ⟨w'', hrest, hcases⟩ := hf w' hfirst
  refine ⟨w'', trans_of World.Untouched hfirst hrest, ?_⟩
  rw [bind_apply, hw']
  exact hcases

/-- After a failure nothing is made of nothing. -/
theorem fails_then (hx : Fails x w b) (hf : f b = pure a) : Fails (x >>= f) w a := by
  obtain ⟨w', hu, hdone | ⟨failure, hunwound⟩⟩ := hx
  · refine ⟨w', hu, Or.inl ?_⟩
    rw [bind_apply, hdone]
    exact congrFun (congrFun hf .normal) w'
  · refine ⟨w', hu, Or.inr ⟨failure, ?_⟩⟩
    rw [bind_apply, hunwound]

theorem fails_entity_bind {y : Id} {n : Node} {f : Entity → Act α} (hn : w.store.get? y = some n)
    (hlive : n.live = true) (hf : Fails (f n.entity) w a) : Fails (entity y >>= f) w a := by
  obtain ⟨w', hu, hcases⟩ := hf
  refine ⟨w', hu, ?_⟩
  rw [bind_apply, entity_apply hn hlive]
  exact hcases

/-- A failed check after which there is nothing to return. -/
theorem fails_check (failure : Failure) (a : α) :
    Fails (check failure >>= fun _ => pure a) w a := by
  obtain ⟨w', -, -, happly⟩ := check_apply failure .normal w
  have hu := untouched_check (w := w) failure .normal
  cases hfatal : w.inForce.fatalChecks with
  | true =>
    rw [hfatal] at happly
    rw [happly] at hu
    exact ⟨w', hu, Or.inr ⟨failure, by rw [bind_apply, happly]; rfl⟩⟩
  | false =>
    rw [hfatal] at happly
    rw [happly] at hu
    exact ⟨w', hu, Or.inl (by rw [bind_apply, happly]; rfl)⟩

/-- Where the check of the start of shutdown is fatal and fails, it unwinds. -/
theorem requireRunning_unwound (h : ¬ w.IsTolerant) :
    ∃ w', w.Untouched w' ∧ requireRunning .normal w = (.unwound .heldAtShutdown, w') := by
  unfold World.IsTolerant at h
  push Not at h
  obtain ⟨hd, hs, hf⟩ := h
  obtain ⟨w₁, hw₁, hconsults⟩ := settings_apply .normal w
  obtain ⟨w₂, -, -, hw₂⟩ := check_apply .heldAtShutdown .normal w₁
  have hd₁ : w₁.isShutdown = true := hconsults.quiet.isShutdown.trans hd
  have hf₁ : w₁.inForce.fatalChecks = true := by
    rw [hconsults.quiet.inForce]
    exact Bool.eq_true_of_not_eq_false hf
  have happly : requireRunning .normal w = (.unwound .heldAtShutdown, w₂) := by
    rw [requireRunning, bind_apply, hw₁]
    simp only [hs, if_true]
    show (require (!w₁.isShutdown) .heldAtShutdown) .normal w₁ = _
    rw [hd₁]
    show check .heldAtShutdown .normal w₁ = _
    rw [hw₂, if_pos hf₁]
    rfl
  have hu := untouched_requireRunning (w := w) .normal
  rw [happly] at hu
  exact ⟨w₂, hu, happly⟩

/-- An act that begins with this check fails with it. -/
theorem fails_requireRunning {f : Unit → Act α} (h : ¬ w.IsTolerant) (a : α) :
    Fails (requireRunning >>= f) w a := by
  obtain ⟨w', hu, hw'⟩ := requireRunning_unwound h
  exact ⟨w', hu, Or.inr ⟨.heldAtShutdown, by rw [bind_apply, hw']⟩⟩

theorem fails_running {f : Unit → Act α} (hf : ∀ w', w.Untouched w' → Fails (f ()) w' a) :
    Fails (requireRunning >>= f) w a := by
  by_cases h : w.IsTolerant
  · exact fails_bind (yields_requireRunning h) untouched_requireRunning hf
  · exact fails_requireRunning h a

/-! ## Entities that lose their links -/

theorem makes_put (x : Id) (e : Entity) :
    Makes (put x e) w () (w.store.modify x fun n => { n with entity := e }) :=
  fun _ => ⟨_, rfl, rfl, rfl, rfl⟩

theorem makes_retire (x : Id) :
    Makes (retire x) w () (w.store.modify x fun n => { n with live := false }) :=
  fun _ => ⟨_, rfl, rfl, rfl, rfl⟩

/-- An entity that has lost its link is destroyed alone. -/
theorem makes_dispose_unlinked {x : Id} {name : String} {e e' : Entity} {w₁ : World}
    (hn : w.store.get? x = some ⟨name, e, true⟩) (he : e'.isUnlinked = true)
    (h₁ : w.Becomes w₁ (w.store.modify x fun n => { n with entity := e' })) (ht : w.IsTolerant) :
    Makes (dispose x) w₁ () (w.store.modify x fun n => ⟨n.name, e', false⟩) := by
  have hn₁ : w₁.store.get? x = some ⟨name, e', true⟩ := by
    rw [h₁.store, Store.get?_modify, if_pos rfl, hn]
    rfl
  have hmodify : w₁.store.modify x (fun n => { n with live := false }) =
      w.store.modify x fun n => ⟨n.name, e', false⟩ := by
    rw [h₁.store, Store.modify_modify]
    rfl
  have hretire : Makes (retire x >>= fun _ => requireRunning) w₁ ()
      (w.store.modify x fun n => ⟨n.name, e', false⟩) := by
    refine makes_bind (makes_retire x) fun w₂ h₂ => ?_
    have ht₂ : w₂.IsTolerant := h₂.isTolerant (h₁.isTolerant ht)
    rw [← hmodify, ← h₂.store]
    exact makes_of_yields (yields_requireRunning ht₂)
  intro phase
  rw [dispose_unlinked hn₁ he]
  exact hretire phase

/-! ## Acts that are refused -/

/-- Whatever the phase, the act is refused. -/
def Refuses (x : Act α) (w : World) : Prop := ∀ phase, ∃ m w', x phase w = (.refused m, w')

theorem refuses_bind (h : Refuses x w) : Refuses (x >>= f) w := by
  intro phase
  obtain ⟨m, w', hw'⟩ := h phase
  exact ⟨m, w', by rw [bind_apply, hw']⟩

theorem refuses_after (hx : Yields x w b) (hf : ∀ w', w.Quiet w' → Refuses (f b) w') :
    Refuses (x >>= f) w := by
  intro phase
  obtain ⟨w', hw', hq⟩ := hx phase
  obtain ⟨m, w'', hw''⟩ := hf w' hq phase
  refine ⟨m, w'', ?_⟩
  rw [bind_apply, hw']
  exact hw''

theorem refuses_entity_bind {y : Id} {n : Node} {f : Entity → Act α}
    (hn : w.store.get? y = some n) (hlive : n.live = true) (hf : Refuses (f n.entity) w) :
    Refuses (entity y >>= f) w := by
  intro phase
  rw [bind_apply, entity_apply hn hlive]
  exact hf phase

section References

variable {x : Id} (hl : w.store.Linked) (hacc : ∀ y ∈ w.store.chain x, w.store.Accountable y)
  (hr : w.store.CanRise (w.store.chain x)) (hnot : ¬ w.store.Upheld (w.store.chain x))
include hl hacc hr hnot

/-- No reference is taken along a chain of which something is missing. -/
theorem refuses_retain : Refuses (retain x) w := by
  intro phase
  rcases runs_retain hl hr phase with ⟨a, w', hw'⟩ | ⟨-, hrefused⟩
  · have hretained := ends_of_done (ends_retain (U := fun _ _ => True) hl.earlier x) hw'
    have hreach := hl.reach_eq_of_upheld (Or.inl rfl) hretained.upheld hacc
    exact absurd (hreach ▸ hretained.upheld) hnot
  · exact hrefused

/-- Nor does a new wrapper or proxy above it get its first one. -/
theorem refuses_introduce {name : String} {e : Entity} {g : Id → Act α}
    (hf : Node.IsFresh ⟨name, e, true⟩ w.store x) (hea : e.isAccountable = true) :
    Refuses
      (do
        let y ← create name e
        retain y
        g y)
      w := by
  let w₁ : World := { w with store := w.store.push ⟨name, e, true⟩ }
  have hl₁ : w₁.store.Linked := hf.linked_push hl
  have hsame : ∀ y ∈ w.store.chain x, w₁.store.get? y = w.store.get? y := fun y hy =>
    Store.keeps_push w.store _ y (Nat.lt_of_le_of_lt (Store.chain_le hl.earlier x y hy)
      hf.linked.lt_size)
  have hchain : w₁.store.chain w.store.size = w.store.size :: w.store.chain x := hf.chain_push hl
  have hnew : w₁.store.get? w.store.size = some ⟨name, e, true⟩ := Store.get?_push_size _ _
  have hrise : e.canRise = true := by
    rw [Entity.canRise, hf.count]
    rfl
  have hacc₁ : ∀ y ∈ w₁.store.chain w.store.size, w₁.store.Accountable y := by
    intro y hy n hn
    rw [hchain] at hy
    rcases List.mem_cons.mp hy with rfl | hy
    · cases hnew.symm.trans hn
      exact hea
    · exact hacc y hy n ((hsame y hy).symm.trans hn)
  have hr₁ : w₁.store.CanRise (w₁.store.chain w.store.size) := by
    rw [hchain]
    refine Store.canRise_cons hnew hrise fun y hy n hn => ?_
    exact hr y hy n ((hsame y hy).symm.trans hn)
  have hnot₁ : ¬ w₁.store.Upheld (w₁.store.chain w.store.size) := by
    intro hup
    apply hnot
    intro y hy
    rw [← hsame y hy]
    exact hup y (hchain ▸ List.mem_cons_of_mem _ hy)
  intro phase
  exact refuses_bind (refuses_retain (w := w₁) hl₁ hacc₁ hr₁ hnot₁) phase

end References

end Act

open Act

/-! ## Classes that do not know a structure -/

variable {z : Id} {n : Node} {t : Tag}

namespace SharedClass

/-- A class leaves alone what neither itself nor its child has wrapped. -/
theorem fails_unwrap {c : SharedClass} (hn : w.store.get? z = some n) (hlive : n.live = true)
    (ht : n.entity.wrapperTag? = some t) (hno : ∀ d, c.Recovers d → d.tag ≠ t) :
    Fails (c.unwrap z) w none := by
  refine fails_running fun w₁ h₁ => ?_
  rw [← h₁.quiet.store] at hn
  refine fails_bind (yields_wrapperTag hn hlive ht) (untouched_wrapperTag z) fun w₂ _ => ?_
  rw [if_neg fun heq : t = c.tag => hno c (Or.inl rfl) heq.symm, derived?]
  split_ifs with hchild
  · exact absurd hchild.2.symm (hno child (Or.inr ⟨hchild.1, rfl⟩))
  · exact fails_check _ none

/-- No reference of a wrapper is taken back if something below it is missing. -/
theorem refuses_unwrap {c : SharedClass} {v : SharedWrapper} {name : String}
    (hl : w.store.Linked) (ht : w.IsTolerant)
    (hn : w.store.get? z = some ⟨name, .sharedWrapper v, true⟩) (hc : c.Recovers v.cls)
    (hacc : ∀ y ∈ w.store.chain z, w.store.Accountable y)
    (hr : w.store.CanRise (w.store.chain z)) (hnot : ¬ w.store.Upheld (w.store.chain z)) :
    Refuses (c.unwrap z) w := by
  rw [Store.chain_of_below hl.earlier hn rfl] at hacc hr hnot
  have hretrieve (d : SharedClass) {w' : World} (hq : w.Quiet w') : Refuses (d.retrieve z) w' := by
    rw [← hq.store] at hl hn hacc hr hnot
    refine refuses_entity_bind hn rfl (refuses_bind (refuses_retain hl ?_ ?_ ?_))
    · exact fun y hy => hacc y (List.mem_cons_of_mem z hy)
    · exact fun y hy => hr y (List.mem_cons_of_mem z hy)
    · exact fun hup => hnot (Store.upheld_cons hn rfl rfl hup)
  refine refuses_after (yields_requireRunning ht) fun w₁ h₁ => ?_
  have hn₁ := h₁.store.symm ▸ hn
  refine refuses_after (yields_wrapperTag hn₁ rfl rfl) fun w₂ h₂ => ?_
  have hq := trans_of World.Quiet h₁ h₂
  rcases c.recovers_cases v.cls with ⟨htag, -⟩ | ⟨htag, hderived, -⟩ | ⟨-, -, hunknown⟩
  · rw [if_pos htag]
    exact hretrieve c hq
  · rw [if_neg htag, hderived]
    refine refuses_after (yields_requireRunning (hq.isTolerant ht)) fun w₃ h₃ => ?_
    exact hretrieve child (trans_of World.Quiet hq h₃)
  · exact absurd hc hunknown

end SharedClass

namespace OwnedClass

theorem fails_takeBack {c : OwnedClass} (hn : w.store.get? z = some n) (hlive : n.live = true)
    (ht : n.entity.wrapperTag? = some t) (hno : ∀ d, c.Recovers d → d.tag ≠ t) :
    Fails (c.takeBack z) w none := by
  refine fails_running fun w₁ h₁ => ?_
  rw [← h₁.quiet.store] at hn
  refine fails_bind (yields_wrapperTag hn hlive ht) (untouched_wrapperTag z) fun w₂ _ => ?_
  rw [if_neg fun heq : t = c.tag => hno c (Or.inl rfl) heq.symm, derived?]
  split_ifs with hchild
  · exact absurd hchild.2.symm (hno child (Or.inr ⟨hchild.1, rfl⟩))
  · exact fails_check _ none

variable {v : OwnedWrapper} {name : String}
  (hn : w.store.get? z = some ⟨name, .ownedWrapper v, true⟩)
include hn

/-- What is only borrowed is not taken back. -/
theorem fails_takeBack_borrowed {c : OwnedClass} (hc : c.Recovers v.cls) (hv : v.owns = false) :
    Fails (c.takeBack z) w none := by
  have hretrieve (d : OwnedClass) {w' : World} (hq : w.Untouched w') :
      Fails (d.retrieve z) w' none := by
    rw [← hq.quiet.store] at hn
    refine fails_entity_bind hn rfl ?_
    show Fails (require v.owns .notOwning >>= fun _ => if v.owns then _ else pure none) w' none
    rw [hv]
    exact fails_check .notOwning none
  refine fails_running fun w₁ h₁ => ?_
  have hn₁ := h₁.quiet.store.symm ▸ hn
  refine fails_bind (yields_wrapperTag hn₁ rfl rfl) (untouched_wrapperTag z) fun w₂ h₂ => ?_
  have hq := trans_of World.Untouched h₁ h₂
  rcases c.recovers_cases v.cls with ⟨htag, -⟩ | ⟨htag, hderived, -⟩ | ⟨-, -, hnot⟩
  · rw [if_pos htag]
    exact hretrieve c hq
  · rw [if_neg htag, hderived]
    exact fails_running fun w₃ h₃ => hretrieve child (trans_of World.Untouched hq h₃)
  · exact absurd hc hnot

/-! ## Ownership that is taken over -/

/-- A wrapper that has lost its object, and ceased to exist with that. -/
def vacated (v : OwnedWrapper) (n : Node) : Node :=
  ⟨n.name, .ownedWrapper { v with object := none }, false⟩

/-- A wrapper without its object is destroyed alone. -/
theorem makes_vacate (ht : w.IsTolerant) :
    Makes (put z (.ownedWrapper { v with object := none }) >>= fun _ => dispose z) w ()
      (w.store.modify z (vacated v)) :=
  makes_bind (makes_put z _) fun _ h₁ => makes_dispose_unlinked hn rfl h₁ ht

theorem makes_retrieve {o : Id} (c : OwnedClass) (hv : v.owns = true) (ho : v.object = some o)
    (ht : w.IsTolerant) : Makes (c.retrieve z) w (some o) (w.store.modify z (vacated v)) := by
  have hvacate := makes_vacate hn ht
  obtain ⟨cls, object, struct, owns⟩ := v
  cases hv
  cases ho
  refine makes_entity_bind hn rfl ?_
  show Makes (put z _ >>= fun _ => dispose z >>= fun _ => _) w _ _
  rw [← bind_assoc]
  exact makes_bind hvacate fun w₁ h₁ => makes_crossed h₁.store

/-- The object of a wrapper that owns it is taken back, and all else stays. -/
theorem makes_takeBack {c : OwnedClass} {o : Id} (hc : c.Recovers v.cls) (hv : v.owns = true)
    (ho : v.object = some o) (ht : w.IsTolerant) :
    Makes (c.takeBack z) w (some o) (w.store.modify z (vacated v)) := by
  refine makes_yields_bind (yields_requireRunning ht) fun w₁ h₁ => ?_
  rw [← h₁.store] at hn ⊢
  refine makes_yields_bind (yields_wrapperTag hn rfl rfl) fun w₂ h₂ => ?_
  have ht₂ : w₂.IsTolerant := h₂.isTolerant (h₁.isTolerant ht)
  rw [← h₂.store] at hn ⊢
  rcases c.recovers_cases v.cls with ⟨htag, -⟩ | ⟨htag, hderived, -⟩ | ⟨-, -, hnot⟩
  · rw [if_pos htag]
    exact makes_retrieve hn c hv ho ht₂
  · rw [if_neg htag, hderived]
    refine makes_yields_bind (yields_requireRunning ht₂) fun w₃ h₃ => ?_
    rw [← h₃.store] at hn ⊢
    exact makes_retrieve hn child hv ho (h₃.isTolerant ht₂)
  · exact absurd hc hnot

end OwnedClass

namespace ProxyClass

/-- No structure gets a proxy if something below it is missing. -/
theorem refuses_receive (c : ProxyClass) (name : String) (hl : w.store.Linked) (ht : w.IsTolerant)
    (hrole : w.store.HasRole z .sharedStructure)
    (hacc : ∀ y ∈ w.store.chain z, w.store.Accountable y)
    (hr : w.store.CanRise (w.store.chain z)) (hnot : ¬ w.store.Upheld (w.store.chain z)) :
    Refuses (c.receive name z) w := by
  refine refuses_after (yields_requireRunning ht) fun w₁ h₁ => ?_
  rw [← h₁.store] at hl hrole hacc hr hnot
  exact refuses_introduce hl hacc hr hnot ⟨rfl, rfl, rfl, hrole, trivial⟩ rfl

/-- A structure gets a proxy that owns it, and all else stays. -/
theorem makes_adopt (c : ProxyClass) (name : String) (z : Id) (ht : w.IsTolerant) :
    Makes (c.adopt name z) w w.store.size
      (w.store.push ⟨name, .ownedProxy ⟨c, some z⟩, true⟩) := by
  refine makes_yields_bind (yields_requireRunning ht) fun w₁ h₁ => ?_
  rw [← h₁.store]
  let w₂ : World := { w₁ with store := w₁.store.push ⟨name, .ownedProxy ⟨c, some z⟩, true⟩ }
  have hcreate : Makes (create name (.ownedProxy ⟨c, some z⟩)) w₁ w₁.store.size w₂.store :=
    fun phase => ⟨w₂, rfl, rfl, rfl, rfl⟩
  exact makes_bind hcreate fun w₃ h₃ => makes_crossed h₃.store

end ProxyClass

end ObjectBoundary
