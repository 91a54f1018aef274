import ObjectBoundary.Proofs.Acts.Supervised
import ObjectBoundary.Proofs.Acts.Twins
import ObjectBoundary.Proofs.References.Balance
import Mathlib.Algebra.BigOperators.Group.Finset.Piecewise

/-!
# Reports of the start of shutdown

Once shutdown has begun, every carrier that an act makes and every one that ceases to exist is
reported by a failed check of its own. Where failed checks are fatal none is made any more.

* `Store.turnover`: the carriers that were made and those that have ceased to exist, counted up.
* `World.Watched`: an act has reported what it did to carriers.
* `requireRunning_apply`: the check fails for certain once shutdown has begun.
* `Supervised.watched`: acts under supervision report what they do to carriers.
-/

namespace ObjectBoundary

/-! ## Carriers that come and go -/

/-- A carrier counts once when it is made and once more when it has ceased to exist. -/
def Node.turnover (n : Node) : Nat :=
  if n.entity.isCarrier then if n.live then 1 else 2 else 0

theorem Node.turnover_of_not_isCarrier {n : Node} (h : n.entity.isCarrier = false) :
    n.turnover = 0 := by
  rw [turnover, h]
  rfl

theorem Node.turnover_gone (n : Node) :
    Node.turnover { n with live := false } ≤ n.turnover + 1 := by
  unfold turnover
  cases n.entity.isCarrier <;> cases n.live <;> simp

namespace Store

def turnover (st : Store) : Nat := st.total Node.turnover

/-- What is a carrier stays one and nothing else becomes one, and what has ceased to exist does not
come back. -/
def Preserves (st st' : Store) : Prop :=
  ∀ x n, st.get? x = some n → ∃ n', st'.get? x = some n' ∧
    n'.entity.isCarrier = n.entity.isCarrier ∧ (n'.live = true → n.live = true)

/-- All carriers were there before. -/
def AddsNoCarrier (st st' : Store) : Prop :=
  ∀ x n, st'.get? x = some n → n.entity.isCarrier = true → x < st.size

variable {st st' st'' : Store} {x : Id} {n : Node}

theorem Preserves.refl (st : Store) : st.Preserves st := fun _ n hn => ⟨n, hn, rfl, fun h => h⟩

theorem Preserves.trans (h : st.Preserves st') (h' : st'.Preserves st'') : st.Preserves st'' := by
  intro x n hn
  obtain ⟨n', hn', hc, hl⟩ := h x n hn
  obtain ⟨n'', hn'', hc', hl'⟩ := h' x n' hn'
  exact ⟨n'', hn'', hc'.trans hc, fun hlive => hl (hl' hlive)⟩

theorem Preserves.size_le (h : st.Preserves st') : st.size ≤ st'.size := by
  by_contra hlt
  obtain ⟨n', hn', -⟩ := h st'.size _ (List.getElem?_eq_getElem (Nat.lt_of_not_le hlt))
  rw [get?_size] at hn'
  cases hn'

theorem AddsNoCarrier.of_size (h : st'.size = st.size) : st.AddsNoCarrier st' :=
  fun _ _ hn _ => h ▸ lt_size hn

theorem AddsNoCarrier.trans (h : st.AddsNoCarrier st') (hp : st'.Preserves st'')
    (h' : st'.AddsNoCarrier st'') : st.AddsNoCarrier st'' := by
  intro x n hn hcarrier
  obtain ⟨n', hn'⟩ : ∃ n', st'.get? x = some n' :=
    ⟨_, List.getElem?_eq_getElem (h' x n hn hcarrier)⟩
  obtain ⟨n'', hn'', hc, -⟩ := hp x n' hn'
  cases hn.symm.trans hn''
  exact h x n' hn' (hc ▸ hcarrier)

theorem preserves_modify {f : Node → Node} (hn : st.get? x = some n)
    (hc : (f n).entity.isCarrier = n.entity.isCarrier)
    (hl : (f n).live = true → n.live = true) : st.Preserves (st.modify x f) := by
  intro y m hm
  rw [get?_modify]
  split
  · rename_i hxy
    subst hxy
    cases hn.symm.trans hm
    exact ⟨f n, by rw [hn]; rfl, hc, hl⟩
  · exact ⟨m, hm, rfl, fun h => h⟩

theorem preserves_push (st : Store) (n : Node) : st.Preserves (st.push n) := by
  intro y m hm
  exact ⟨m, by rw [get?_push, if_neg (Nat.ne_of_lt (lt_size hm)), hm], rfl, fun h => h⟩

/-- An entity that ceases to exist counts once at most. -/
theorem retired (st : Store) (x : Id) :
    st.Preserves (st.modify x fun n => { n with live := false }) ∧
      (st.modify x fun n => { n with live := false }).turnover ≤ st.turnover + 1 := by
  cases hn : st.get? x with
  | none =>
    have hout : st.nodes.length ≤ x := List.getElem?_eq_none_iff.mp hn
    have hsame (f : Node → Node) : st.modify x f = st :=
      congrArg Store.mk (List.modify_eq_self hout)
    rw [hsame]
    exact ⟨.refl st, Nat.le_succ _⟩
  | some n =>
    refine ⟨preserves_modify hn rfl nofun, ?_⟩
    have htotal := st.total_modify Node.turnover (f := fun n => { n with live := false }) hn
    have hgone := n.turnover_gone
    unfold turnover
    omega

/-! ## Which carriers they are -/

/-- There is a carrier, whether it still exists or not. -/
def isCarrier (st : Store) (x : Id) : Bool := (st.get? x).any fun n => n.entity.isCarrier

/-- There was a carrier, which exists no longer. -/
def isGone (st : Store) (x : Id) : Bool := (st.get? x).any fun n => n.entity.isCarrier && !n.live

/-- The carriers that were made from one moment to a later one. -/
def introduced (st st' : Store) : Finset Id :=
  {x ∈ Finset.range st'.size | st'.isCarrier x = true ∧ st.isCarrier x = false}

/-- The carriers that ceased to exist from one moment to a later one, those included that were made
in between. -/
def discarded (st st' : Store) : Finset Id :=
  {x ∈ Finset.range st'.size | st'.isGone x = true ∧ st.isGone x = false}

/-- The turnover of all entities, summed up over identities. -/
theorem turnover_eq (st : Store) {bound : Nat} (h : st.size ≤ bound) :
    st.turnover = ∑ x ∈ Finset.range bound, (st.get? x).elim 0 Node.turnover := by
  obtain ⟨l⟩ := st
  show (l.map Node.turnover).sum = ∑ x ∈ Finset.range bound, l[x]?.elim 0 Node.turnover
  change l.length ≤ bound at h
  induction l generalizing bound with
  | nil => simp
  | cons n l ih =>
    cases bound with
    | zero => cases h
    | succ bound =>
      rw [Finset.sum_range_succ', List.map_cons, List.sum_cons, ih (Nat.le_of_succ_le_succ h)]
      simp [add_comm]

/-- The turnover grows by the carriers that are made and those that cease to exist. -/
theorem Preserves.turnover_eq (h : st.Preserves st') :
    (st.introduced st').card + (st.discarded st').card + st.turnover = st'.turnover := by
  have hsize := h.size_le
  rw [introduced, discarded, Finset.card_filter, Finset.card_filter, st.turnover_eq hsize,
    st'.turnover_eq (Nat.le_refl _), ← Finset.sum_add_distrib, ← Finset.sum_add_distrib]
  refine Finset.sum_congr rfl fun x hx => ?_
  obtain ⟨n', hn'⟩ : ∃ n', st'.get? x = some n' :=
    ⟨_, List.getElem?_eq_getElem (Finset.mem_range.mp hx)⟩
  cases hn : st.get? x with
  | none =>
    simp only [isCarrier, isGone, hn, hn', Option.any_some, Option.any_none, Option.elim_some,
      Option.elim_none, Node.turnover]
    cases n'.entity.isCarrier <;> cases n'.live <;> rfl
  | some n =>
    obtain ⟨m, hm, hc, hl⟩ := h x n hn
    cases hn'.symm.trans hm
    simp only [isCarrier, isGone, hn, hn', Option.any_some, Option.elim_some, Node.turnover, hc]
    cases n.entity.isCarrier <;> cases hlive : n.live <;> cases hlive' : n'.live <;> simp_all

theorem AddsNoCarrier.introduced_eq (h : st.AddsNoCarrier st') (hp : st.Preserves st') :
    st.introduced st' = ∅ := by
  refine Finset.filter_eq_empty_iff.mpr fun x _ hx => ?_
  obtain ⟨hcarrier, hnot⟩ := hx
  obtain ⟨n', hn', hc'⟩ := (Option.any_eq_true _ _).mp hcarrier
  obtain ⟨n, hn⟩ : ∃ n, st.get? x = some n := ⟨_, List.getElem?_eq_getElem (h x n' hn' hc')⟩
  obtain ⟨m, hm, hc, -⟩ := hp x n hn
  cases hn'.symm.trans hm
  rw [isCarrier, hn, Option.any_some, ← hc, hc'] at hnot
  cases hnot

end Store

/-! ## Worlds in which all is reported -/

namespace World

/-- The reports of an object that was held after the start of shutdown. -/
def reports (w : World) : Nat := w.log.count (.failed .heldAtShutdown)

/-- What was done to carriers was reported, and none was made where failed checks are fatal. -/
structure Watched (w w' : World) : Prop where
  later : w.Later w'
  preserves : w.store.Preserves w'.store
  reported : w'.store.turnover + w.reports ≤ w.store.turnover + w'.reports
  addsNone : w.IsFatal → w.store.AddsNoCarrier w'.store

instance : IsPreorder World Watched where
  refl w := ⟨refl_of Later w, .refl _, Nat.le_refl _, fun _ => .of_size rfl⟩
  trans w w' w'' h h' := by
    refine ⟨trans_of Later h.later h'.later, h.preserves.trans h'.preserves, ?_, fun hf => ?_⟩
    · have hr := h.reported
      have hr' := h'.reported
      omega
    · exact (h.addsNone hf).trans h'.preserves (h'.addsNone (h.later.isFatal hf))

variable {w w' : World}

/-- Where the entities stay as they are, more may be reported. -/
theorem Watched.of_store (hl : w.Later w') (hs : w'.store = w.store) (hlog : w.log <+: w'.log) :
    w.Watched w' where
  later := hl
  preserves := hs ▸ .refl _
  reported := by
    rw [hs]
    exact Nat.add_le_add_left (hlog.sublist.count_le _) _
  addsNone _ := .of_size (congrArg Store.size hs)

/-- A change of one entity that makes no difference to what was made and what exists. -/
theorem Watched.modify {x : Id} {n : Node} {f : Node → Node} (hn : w.store.get? x = some n)
    (hc : (f n).entity.isCarrier = n.entity.isCarrier) (hl : (f n).live = true → n.live = true)
    (ht : (f n).turnover = n.turnover) : w.Watched { w with store := w.store.modify x f } where
  later := ⟨rfl, fun _ h => h, fun h => h⟩
  preserves := Store.preserves_modify hn hc hl
  reported := by
    have htotal := w.store.total_modify Node.turnover (f := f) hn
    show (w.store.modify x f).total Node.turnover + w.reports ≤ _ + w.reports
    unfold Store.turnover
    omega
  addsNone _ := .of_size (Store.size_modify _ _ _)

end World

/-! ## What is known -/

/-- What is known of entities is true of them. -/
def Act.Known.Holds (k : Known) (st : Store) : Prop :=
  ∀ x b, k x = some b → ∃ n, st.get? x = some n ∧ n.entity.isCarrier = b

namespace Act

variable {α β : Type} {ph : Phase} {k : Known} {w w' : World} {x : Id}

theorem Known.Holds.mono {st st' : Store} (h : k.Holds st) (hp : st.Preserves st') :
    k.Holds st' := by
  intro x b hx
  obtain ⟨n, hn, hb⟩ := h x b hx
  obtain ⟨n', hn', hc, -⟩ := hp x n hn
  exact ⟨n', hn', hc.trans hb⟩

theorem Known.Holds.learn {st : Store} {n : Node} (h : k.Holds st) (hn : st.get? x = some n) :
    (k.learn x n.entity.isCarrier).Holds st := by
  intro y b hy
  unfold Known.learn at hy
  split at hy
  · rename_i hyx
    cases hy
    exact ⟨n, hyx ▸ hn, rfl⟩
  · exact h y b hy

/-! ## Simple acts -/

/-- Where settings are in force they decide whether a failed check unwinds. -/
theorem check_apply_of_some {s : Settings} (hs : w.settings = some s) (failure : Failure)
    (phase : Phase) :
    check failure phase w = (if s.fatalChecks then unwind failure else pure ()) phase
      { w with log := w.log ++ [.failed failure] } := by
  let w₁ : World := { w with log := w.log ++ [.failed failure] }
  have hs₁ : w₁.settings = some s := hs
  show (settings >>= fun s => if s.fatalChecks then unwind failure else pure ()) phase w₁ = _
  rw [bind_apply, settings_apply_of_some hs₁]

/-- They decide as well whether it is checked at all that shutdown has not begun. -/
theorem requireRunning_apply_of_some {s : Settings} (hs : w.settings = some s) (phase : Phase) :
    requireRunning phase w =
      (if s.shutdownChecks then require (!w.isShutdown) .heldAtShutdown else pure ()) phase w := by
  rw [requireRunning, bind_apply, settings_apply_of_some hs]
  dsimp only
  split <;> rfl

/-- Once shutdown has begun the check fails, whatever becomes of it. -/
theorem requireRunning_apply (h : w.IsBarred) (phase : Phase) :
    ∃ s, w.settings = some s ∧ requireRunning phase w =
      (if s.fatalChecks then unwind .heldAtShutdown else pure ()) phase
        { w with log := w.log ++ [.failed .heldAtShutdown] } := by
  obtain ⟨hd, s, hs, hc⟩ := h
  refine ⟨s, hs, ?_⟩
  have hfails : require (!w.isShutdown) .heldAtShutdown = check .heldAtShutdown := by
    rw [hd]
    rfl
  rw [requireRunning_apply_of_some hs, if_pos hc, hfails]
  exact check_apply_of_some hs _ phase

/-- The check leaves its report and all entities as they are. -/
theorem requireRunning_world (h : w.IsBarred) (phase : Phase) :
    (requireRunning phase w).2 = { w with log := w.log ++ [.failed .heldAtShutdown] } := by
  obtain ⟨s, -, happly⟩ := requireRunning_apply h phase
  rw [happly]
  cases s.fatalChecks
  · rfl
  · cases phase <;> rfl

theorem watched_emit (e : Event) : Respects World.Watched (emit e) w :=
  fun _ => .of_store (onward_log w e).later rfl (onward_log w e).log

theorem watched_check (failure : Failure) : Respects World.Watched (check failure) w := by
  intro phase
  have honward := onward_check (w := w) failure phase
  exact .of_store honward.later (respects_check failure phase).store honward.log

theorem watched_requireRunning : Respects World.Watched requireRunning w := by
  intro phase
  have honward := onward_requireRunning (w := w) phase
  exact .of_store honward.later (respects_requireRunning phase).store honward.log

theorem watched_put {e : Entity} (hk : k.Holds w.store) (h : k x = some e.isCarrier) :
    Respects World.Watched (put x e) w := by
  obtain ⟨n, hn, hc⟩ := hk x _ h
  refine respects_modify (.modify hn hc.symm (fun hl => hl) ?_)
  unfold Node.turnover
  rw [hc]

theorem watched_retire (hk : k.Holds w.store) (h : k x = some false) :
    Respects World.Watched (retire x) w := by
  obtain ⟨n, hn, hc⟩ := hk x _ h
  refine respects_modify (.modify hn rfl nofun ?_)
  have hgone : Node.turnover { n with live := false } = 0 := Node.turnover_of_not_isCarrier hc
  rw [hgone, Node.turnover_of_not_isCarrier hc]

theorem watched_raise : Respects World.Watched (raise x) w := by
  refine respects_entity_bind fun n hn _ => ?_
  cases hc : n.entity.count? with
  | none => exact respects_refuse _
  | some c =>
    rw [ofOption_some_bind]
    refine respects_bind (respects_modify (.modify hn ?_ (fun h => h) ?_)) fun _ _ _ => ?_
    · exact Entity.isCarrier_withCount _ _
    · unfold Node.turnover
      rw [Entity.isCarrier_withCount]
    · refine respects_bind (watched_emit _) fun _ _ _ => ?_
      split
      · exact respects_abort
      · exact respects_pure _

theorem watched_change (x : Id) (f : Structure → Structure) :
    Respects World.Watched (entity x >>= fun e => ofOption .wrongKind e.struct? >>= fun t =>
      put x (e.withStruct (f t))) w := by
  refine respects_entity_bind fun n hn _ => ?_
  cases n.entity.struct? with
  | none => exact respects_refuse _
  | some t =>
    refine respects_modify (.modify hn (Entity.isCarrier_withStruct _ _) (fun h => h) ?_)
    unfold Node.turnover
    rw [Entity.isCarrier_withStruct]

/-- What ceases to exist is reported. -/
theorem watched_expire (hb : w.IsBarred) :
    Respects World.Watched (retire x >>= fun _ => requireRunning) w := by
  intro phase
  let w₁ : World := { w with store := w.store.modify x fun n => { n with live := false } }
  have hb₁ : w₁.IsBarred := hb
  show w.Watched (requireRunning phase w₁).2
  rw [requireRunning_world hb₁ phase]
  obtain ⟨hpreserves, hturnover⟩ := w.store.retired x
  refine ⟨⟨rfl, fun _ h => h, fun h => h⟩, hpreserves, ?_,
    fun _ => .of_size (Store.size_modify _ _ _)⟩
  have hreports : World.reports { w₁ with log := w₁.log ++ [.failed .heldAtShutdown] } =
      w.reports + 1 := by
    simp [World.reports, w₁]
  rw [hreports]
  show (w.store.modify x _).turnover + w.reports ≤ _
  omega

theorem watched_create (name : String) {e : Entity} (h : e.isCarrier = false) :
    Respects World.Watched (create name e) w := by
  intro phase
  refine ⟨⟨rfl, fun _ h => h, fun h => h⟩, w.store.preserves_push _, ?_,
    fun _ y n hn hcarrier => ?_⟩
  · show (w.store.push ⟨name, e, true⟩).total Node.turnover + w.reports ≤ _ + w.reports
    rw [Store.total_push, Node.turnover_of_not_isCarrier h]
    exact Nat.le_refl _
  · change (w.store.push ⟨name, e, true⟩).get? y = some n at hn
    rw [Store.get?_push] at hn
    split at hn
    · cases hn
      rw [h] at hcarrier
      cases hcarrier
    · exact Store.lt_size hn

/-- A carrier that is made is reported, and none is made where the check unwinds. -/
theorem watched_introduce (hb : w.IsBarred) (name : String) (e : Entity) :
    w.Watched ((requireRunning >>= fun _ => create name e) .normal w).2 := by
  obtain ⟨s, hs, happly⟩ := requireRunning_apply hb .normal
  rw [bind_apply, happly]
  cases hf : s.fatalChecks with
  | true => exact .of_store (onward_log w _).later rfl (onward_log w _).log
  | false =>
    let n : Node := ⟨name, e, true⟩
    have hnot : ¬ w.IsFatal := by
      rintro ⟨t, ht, hfatal⟩
      cases ht.symm.trans hs
      rw [hf] at hfatal
      cases hfatal
    refine ⟨⟨rfl, fun _ h => h, fun h => h⟩, w.store.preserves_push n, ?_, fun h => absurd h hnot⟩
    show (w.store.push n).total Node.turnover + w.reports ≤
      w.store.turnover + List.count _ (w.log ++ [.failed .heldAtShutdown])
    have hone : n.turnover ≤ 1 := by
      unfold Node.turnover
      split
      · exact Nat.le_refl 1
      · exact Nat.zero_le 1
    rw [Store.total_push, List.count_append, List.count_singleton_self]
    unfold Store.turnover World.reports
    omega

/-! ## Supervised acts -/

/-- Once shutdown has begun, an act under supervision reports what it does to carriers. -/
theorem Supervised.watched {x : Act α} (h : Supervised ph k x) (hb : w.IsBarred)
    (hk : k.Holds w.store) : w.Watched (x ph w).2 := by
  induction h generalizing w with
  | pure a => exact refl_of World.Watched w
  | @bind ph k α β x f _ _ ihx ihf =>
    have hx := ihx hb hk
    rw [bind_apply]
    generalize x ph w = r at hx ⊢
    rcases r with ⟨a | _ | _ | _, w₁⟩
    · exact trans_of World.Watched hx (ihf a (hx.later.isBarred hb) (hk.mono hx.preserves))
    all_goals exact hx
  | refuse m => exact refl_of World.Watched w
  | look view => exact refl_of World.Watched w
  | @entity ph k α x f _ ih =>
    cases hn : w.store.get? x with
    | none =>
      simp only [Act.entity, bind_apply, get, hn]
      exact refl_of World.Watched w
    | some n =>
      cases hlive : n.live with
      | false =>
        simp only [Act.entity, bind_apply, get, hn, hlive]
        exact refl_of World.Watched w
      | true =>
        rw [bind_apply, entity_apply hn hlive]
        exact ih n.entity hb (hk.learn hn)
  | running => exact watched_requireRunning _
  | emit _ => exact watched_emit _ _
  | check failure => exact watched_check failure _
  | raise x => exact watched_raise _
  | put h _ => exact watched_put hk h _
  | retire h => exact watched_retire hk h _
  | expire x => exact watched_expire hb _
  | create name h => exact watched_create name h _
  | introduce name _ => exact watched_introduce hb name _
  | change x f => exact watched_change x f _
  | @vacate ph k x h v _ ih =>
    let e : Entity := .ownedWrapper { v with object := none }
    have hput : w.Watched (Act.put x e ph w).2 := watched_put (e := e) hk h ph
    exact trans_of World.Watched hput (ih (hput.later.isBarred hb) (hk.mono hput.preserves))
  | @contained ph k α x _ ih =>
    rw [contained_eq]
    exact ih hb hk
  | @onUnwind ph k α x d _ _ ihx ihc =>
    have hx := ihx hb hk
    unfold Act.onUnwind
    generalize x ph w = r at hx ⊢
    rcases r with ⟨_ | e | _ | _, w₁⟩
    · exact hx
    · show w.Watched (cleanUp e d.act ph w₁ : Outcome α × World).2
      rw [cleanUp_eq]
      exact trans_of World.Watched hx (ihc (hx.later.isBarred hb) (hk.mono hx.preserves))
    all_goals exact hx

end Act

end ObjectBoundary
