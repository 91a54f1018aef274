import ObjectBoundary.Device
import ObjectBoundary.Inspection
import ObjectBoundary.Owned.Proxy
import ObjectBoundary.Owned.Wrapper
import ObjectBoundary.Shared.Proxy
import ObjectBoundary.Shared.Wrapper
import ObjectBoundary.Act.Members
import ObjectBoundary.Proofs.Acts.Composed

/-!
# Acts under supervision

Wrappers and proxies are *carriers*: they carry objects and structures across the boundary. A
carrier is made only after the check of the start of shutdown was passed, and one that ceases to
exist is followed by that check at once. A check that unwinds lets nothing be made, and neither does
the clean-up after it. All acts keep to this, but for those that signal the start of shutdown or
tell of it. The choice of the settings is left out as well.

* `Entity.isCarrier`: wrappers and proxies.
* `Act.Known`: what an act has found out about entities.
* `Act.Supervised`: acts that keep to this, in a phase and given what is known.
* `Supervised.composed`: they are composed of simple acts.
* `supervised_call`, `supervised_wrap` and their like: the acts of the boundary keep to it.
-/

namespace ObjectBoundary

/-! ## Carriers -/

/-- A wrapper or proxy. -/
def Entity.isCarrier : Entity → Bool
  | .sharedWrapper _ | .ownedWrapper _ | .sharedProxy _ | .ownedProxy _ => true
  | _ => false

@[simp] theorem Entity.isCarrier_withCount (c : Count) (e : Entity) :
    (e.withCount c).isCarrier = e.isCarrier := by
  cases e <;> rfl

@[simp] theorem Entity.isCarrier_withStruct (s : Structure) (e : Entity) :
    (e.withStruct s).isCarrier = e.isCarrier := by
  cases e <;> rfl

/-- A vacant wrapper is a wrapper. -/
theorem Entity.isVacant_of_not_isCarrier {e : Entity} (h : e.isCarrier = false) :
    e.isVacant = false := by
  cases e <;> first | rfl | cases h

namespace Act

/-! ## Supervised acts -/

/-- What is known of entities: whether they are carriers. -/
abbrev Known := Id → Option Bool

/-- What is known after a look at an entity. -/
def Known.learn (k : Known) (x : Id) (isCarrier : Bool) : Known :=
  fun y => if y = x then some isCarrier else k y

@[simp] theorem Known.learn_self (k : Known) (x : Id) (b : Bool) : k.learn x b x = some b :=
  if_pos rfl

/-- Acts under supervision, given the phase in which they run and what is known by then. -/
inductive Supervised : Phase → Known → {α : Type} → Act α → Prop
  | pure {ph : Phase} {k : Known} {α : Type} (a : α) : Supervised ph k (Pure.pure a)
  | bind {ph : Phase} {k : Known} {α β : Type} {x : Act α} {f : α → Act β} :
    Supervised ph k x → (∀ a, Supervised ph k (f a)) → Supervised ph k (x >>= f)
  | refuse {ph : Phase} {k : Known} {α : Type} (m : Misuse) : Supervised ph k (refuse m : Act α)
  /-- The settings, the log and the start of shutdown are out of sight. -/
  | look {ph : Phase} {k : Known} {α : Type} (view : Environment → Store → α) :
    Supervised ph k fun _ w => (.done (view w.environment w.store), w)
  | entity {ph : Phase} {k : Known} {α : Type} (x : Id) {f : Entity → Act α} :
    (∀ e, Supervised ph (k.learn x e.isCarrier) (f e)) → Supervised ph k (entity x >>= f)
  | running {ph : Phase} {k : Known} : Supervised ph k requireRunning
  | emit {ph : Phase} {k : Known} {e : Event} (h : e.isComplaint = false) : Supervised ph k (emit e)
  | check {ph : Phase} {k : Known} (failure : Failure) : Supervised ph k (check failure)
  | raise {ph : Phase} {k : Known} (x : Id) : Supervised ph k (raise x)
  | put {ph : Phase} {k : Known} {x : Id} {e : Entity} (h : k x = some e.isCarrier)
    (hv : e.isVacant = false) : Supervised ph k (put x e)
  | retire {ph : Phase} {k : Known} {x : Id} (h : k x = some false) : Supervised ph k (retire x)
  /-- Whatever it is that ceases to exist. -/
  | expire {ph : Phase} {k : Known} (x : Id) :
    Supervised ph k (retire x >>= fun _ => requireRunning)
  | create {ph : Phase} {k : Known} (name : String) {e : Entity} (h : e.isCarrier = false) :
    Supervised ph k (create name e)
  /-- A carrier is made where the check, if it fails, unwinds. -/
  | introduce {k : Known} (name : String) {e : Entity} (h : e.isVacant = false) :
    Supervised .normal k (requireRunning >>= fun _ => create name e)
  | change {ph : Phase} {k : Known} (x : Id) (f : Structure → Structure) :
    Supervised ph k (entity x >>= fun e => ofOption .wrongKind e.struct? >>= fun t =>
      put x (e.withStruct (f t)))
  | vacate {ph : Phase} {k : Known} {x : Id} (h : k x = some true) (v : OwnedWrapper) :
    Supervised ph k (dispose x) →
      Supervised ph k (put x (.ownedWrapper { v with object := none }) >>= fun _ => dispose x)
  | contained {ph : Phase} {k : Known} {α : Type} {x : Act α} :
    Supervised ph k x → Supervised ph k (contained x)
  | onUnwind {ph : Phase} {k : Known} {α : Type} {x : Act α} (d : Destructor) :
    Supervised ph k x → Supervised .unwinding k d.act → Supervised ph k (onUnwind x d.act)

variable {α β : Type} {ph : Phase} {k : Known}

/-- Acts under supervision are composed of simple ones. -/
theorem Supervised.composed {x : Act α} (h : Supervised ph k x) : Composed x := by
  induction h with
  | pure a => exact .pure a
  | bind _ _ ihx ihf => exact .bind ihx ihf
  | refuse m => exact .refuse m
  | look view => exact .look fun e _ st => view e st
  | entity x _ ih => exact composed_entity_bind ih
  | running => exact composed_requireRunning
  | emit h => exact .emit h
  | check failure => exact .check failure
  | raise x => exact .raise x
  | put _ hv => exact .put _ hv
  | retire _ => exact .retire _
  | expire x => exact .bind (.retire x) fun _ => composed_requireRunning
  | create name h => exact .create name (Entity.isVacant_of_not_isCarrier h)
  | introduce name h => exact .bind composed_requireRunning fun _ => .create name h
  | change x f => exact .change x f
  | vacate _ v _ ih => exact .vacate _ v ih
  | contained _ ih => exact .contained ih
  | onUnwind d _ _ ihx ihc => exact .onUnwind d ihx ihc

/-- Acts that are supervised at any time are composed of simple ones. -/
theorem composed_of_supervised {x : Act α} (h : ∀ ph k, Supervised ph k x) : Composed x :=
  (h .normal fun _ => none).composed

/-! ## Simple acts -/

theorem supervised_get_bind {γ : Type} (view : Environment → Store → γ) {f : γ → Act β}
    (h : ∀ c, Supervised ph k (f c)) :
    Supervised ph k (get >>= fun w => f (view w.environment w.store)) :=
  (Supervised.bind (.look view) h :)

theorem supervised_ofOption (m : Misuse) (o : Option α) : Supervised ph k (ofOption m o) := by
  cases o with
  | none => exact .refuse m
  | some a => exact .pure a

theorem supervised_ofOption_bind {m : Misuse} {o : Option α} {f : α → Act β}
    (h : ∀ a, o = some a → Supervised ph k (f a)) : Supervised ph k (ofOption m o >>= f) := by
  cases o with
  | none => exact .refuse m
  | some a => exact h a rfl

theorem supervised_discard {x : Act α} (h : Supervised ph k x) : Supervised ph k (discard x) :=
  .bind h fun _ => .pure ()

theorem supervised_ensuring {x : Act α} (d : Destructor) (hx : Supervised ph k x)
    (hd : ∀ ph, Supervised ph k d.act) : Supervised ph k (ensuring x d.act) :=
  .bind (.onUnwind d hx (hd .unwinding)) fun a => .bind (hd ph) fun _ => .pure a

theorem supervised_entity (x : Id) : Supervised ph k (entity x) := by
  have h : Supervised ph k (entity x >>= pure) := .entity x fun e => .pure e
  rwa [bind_pure] at h

theorem supervised_chain (x : Id) : Supervised ph k (chain x) :=
  supervised_get_bind (fun _ st => st.chain x) Supervised.pure

theorem supervised_struct (x : Id) : Supervised ph k (struct x) :=
  .entity x fun _ => supervised_ofOption _ _

theorem supervised_through {s : Id} {position : Nat} {absent : α} {x : Act α}
    (h : Supervised ph k x) : Supervised ph k (through s position absent x) := by
  refine .bind (supervised_struct s) fun t => ?_
  split
  · exact .contained h
  · exact .pure _

theorem supervised_require (condition : Bool) (failure : Failure) :
    Supervised ph k (require condition failure) := by
  unfold require
  split
  · exact .pure ()
  · exact .check failure

/-- A new carrier, of which something is made. -/
theorem supervised_introduce_bind (name : String) {e : Entity} (he : e.isVacant = false)
    {f : Id → Act α} (h : ∀ x, Supervised .normal k (f x)) :
    Supervised .normal k (requireRunning >>= fun _ => create name e >>= f) := by
  have hintroduce : Supervised .normal k (requireRunning >>= fun _ => create name e) :=
    .introduce name he
  simpa only [bind_assoc] using hintroduce.bind h

/-- A carrier that ceases to exist before something else is done. -/
theorem supervised_expire_bind (x : Id) {f : Unit → Act α} (h : ∀ u, Supervised ph k (f u)) :
    Supervised ph k (retire x >>= fun _ => requireRunning >>= f) := by
  have hexpire : Supervised ph k (retire x >>= fun _ => requireRunning) := .expire x
  simpa only [bind_assoc] using hexpire.bind h

/-! ## References -/

theorem supervised_lower (x : Id) : Supervised ph k (lower x) := by
  refine .entity x fun e => supervised_ofOption_bind fun c hc => ?_
  refine .bind (.put ?_ (Entity.isVacant_withCount (by rw [hc]; rfl) _)) fun _ => ?_
  · rw [Known.learn_self, Entity.isCarrier_withCount]
  · exact .bind (.emit rfl) fun _ => .bind (supervised_require _ _) fun _ => .pure _

theorem supervised_retainAlong (xs : List Id) : Supervised ph k (retainAlong xs) := by
  induction xs generalizing k with
  | nil => exact .refuse _
  | cons x below ih =>
    refine .entity x fun e => ?_
    cases e with
    | sharedObject o => exact .raise x
    | sharedWrapper v => exact .bind ih fun _ => .raise x
    | sharedProxy p => exact .bind (supervised_through ih) fun _ => .raise x
    | sharedFar f => exact .bind (.emit rfl) fun _ => .put (Known.learn_self k x _) rfl
    | _ => exact .refuse _

theorem supervised_releaseAlong (xs : List Id) : Supervised ph k (releaseAlong xs) := by
  have last {k : Known} {x : Id} {t : Act Unit} (ht : Supervised ph k (retire x >>= fun _ => t)) :
      Supervised ph k
        (do
          let last ← lower x
          if last then
            retire x
            t
          pure (truth last)) := by
    refine .bind (supervised_lower x) fun b => ?_
    split
    · have hlast := ht.bind fun _ => Supervised.pure (truth b)
      simpa only [bind_assoc] using hlast
    · exact .pure _
  induction xs generalizing k with
  | nil => exact .refuse _
  | cons x below ih =>
    refine .entity x fun e => ?_
    cases e with
    | sharedObject o =>
      exact last (.bind (.retire (Known.learn_self k x false)) fun _ => .emit rfl)
    | sharedWrapper v => exact .bind (supervised_discard ih) fun _ => last (.expire x)
    | sharedProxy p =>
      exact .bind (supervised_discard (supervised_through ih)) fun _ => last (.expire x)
    | sharedFar f =>
      refine .bind (.emit rfl) fun _ => .bind (.put ?_ rfl) fun _ => .pure _
      exact Known.learn_self k x false
    | _ => exact .refuse _

theorem supervised_retain (x : Id) : Supervised ph k (retain x) :=
  .bind (supervised_chain x) supervised_retainAlong

theorem supervised_release (x : Id) : Supervised ph k (release x) :=
  .bind (supervised_chain x) supervised_releaseAlong

theorem supervised_drop (x : Id) : Supervised ph k (drop x) :=
  supervised_discard (supervised_release x)

theorem composed_drop (x : Id) : Composed (drop x) :=
  composed_of_supervised fun _ _ => supervised_drop x

theorem supervised_askAlong (q : Question) (xs : List Id) : Supervised ph k (askAlong q xs) := by
  induction xs generalizing k with
  | nil => exact .refuse _
  | cons x below ih =>
    refine .entity x fun e => ?_
    cases e with
    | sharedObject o => exact .pure _
    | sharedWrapper v => exact .bind ih fun _ => .pure _
    | sharedProxy p => exact .bind (supervised_through ih) fun _ => .pure _
    | sharedFar f => exact .bind (.emit rfl) fun _ => .pure _
    | _ => exact .refuse _

theorem supervised_ask (q : Question) (x : Id) : Supervised ph k (ask q x) :=
  .bind (supervised_chain x) (supervised_askAlong q)

/-! ## Values -/

theorem supervised_farAnswer (x : Id) (a : FarAnswers) (index : Nat) :
    Supervised ph k (farAnswer x a index) :=
  supervised_ofOption_bind fun _ _ => .bind (.emit rfl) fun _ => .pure _

theorem supervised_throughOffered {s : Id} {position : Nat} {absent : α} {x : Act α}
    (h : Supervised ph k x) : Supervised ph k (throughOffered s position absent x) := by
  refine .bind (supervised_struct s) fun t => ?_
  split
  · unfold calling
    split
    · exact .contained h
    · exact .refuse _
  · exact .pure _

theorem supervised_answerAlong (index : Nat) (xs : List Id) :
    Supervised ph k (answerAlong index xs) := by
  induction xs generalizing k with
  | nil => exact .refuse _
  | cons x below ih =>
    have hcheck {k : Known} :
        Supervised ph k (requireRunning >>= fun _ => answerAlong index below) :=
      .bind .running fun _ => ih
    refine .entity x fun e => ?_
    cases e with
    | sharedObject o => exact supervised_ofOption _ _
    | ownedObject o => exact supervised_ofOption _ _
    | sharedWrapper v =>
      dsimp only
      cases v.cls with
      | table _ _ => exact hcheck
      | _ => exact .bind .running fun _ => hcheck
    | ownedWrapper v => exact .bind .running fun _ => hcheck
    | sharedProxy p => exact .bind .running fun _ => supervised_throughOffered ih
    | ownedProxy p =>
      refine .bind .running fun _ => ?_
      cases p.target with
      | none => exact .pure 0
      | some s => exact supervised_throughOffered ih
    | sharedFar f => exact supervised_farAnswer _ _ _
    | ownedFar f => exact supervised_farAnswer _ _ _
    | _ => exact .refuse _

theorem supervised_answer (index : Nat) (x : Id) : Supervised ph k (answer index x) :=
  .bind (supervised_chain x) (supervised_answerAlong index)

/-! ## Disposal -/

theorem supervised_disposeAlong (xs : List Id) : Supervised ph k (disposeAlong xs) := by
  induction xs generalizing k with
  | nil => exact .refuse _
  | cons x below ih =>
    refine .entity x fun e => ?_
    cases e with
    | ownedObject o => exact .bind (.retire (Known.learn_self k x false)) fun _ => .emit rfl
    | ownedWrapper v =>
      refine supervised_expire_bind x fun _ => ?_
      split
      · exact ih
      · exact .pure ()
    | ownedProxy p =>
      refine supervised_expire_bind x fun _ => ?_
      cases p.target with
      | none => exact .pure ()
      | some s => exact supervised_through ih
    | ownedFar f => exact .bind (.emit rfl) fun _ => .put (Known.learn_self k x false) rfl
    | _ => exact .refuse _

theorem supervised_dispose (x : Id) : Supervised ph k (dispose x) :=
  .bind (supervised_chain x) supervised_disposeAlong

theorem composed_dispose (x : Id) : Composed (dispose x) :=
  composed_of_supervised fun _ _ => supervised_dispose x

/-! ## Recognising wrappers -/

theorem supervised_wrapperTag (s : Id) : Supervised ph k (wrapperTag s) :=
  .entity s fun _ => supervised_ofOption _ _

theorem supervised_recognises (t : Tag) (s : Id) : Supervised ph k (recognises t s) :=
  .bind (supervised_wrapperTag s) fun _ => .bind (supervised_require _ _) fun _ => .pure _

theorem supervised_objectOf (t : Tag) (s : Id) : Supervised ph k (objectOf t s) := by
  refine .bind .running fun _ => .bind (supervised_recognises t s) fun b => ?_
  split
  · exact .entity s fun _ => .pure _
  · exact .pure none

/-! ## Function members -/

theorem supervised_baseMember {t : Tag} {r : Option Id} {a : α} {f : Id → Act α}
    (hf : ∀ s, Supervised ph k (f s)) : Supervised ph k (baseMember t r a f) := by
  refine .bind (supervised_require _ _) fun _ => ?_
  cases r with
  | none => exact .pure a
  | some s =>
    refine .bind (supervised_recognises t s) fun b => ?_
    split
    · exact hf s
    · exact .pure a

theorem supervised_tableMember (t : Tag) (r : Option Id) (index : Nat) :
    Supervised ph k (tableMember t r index) := by
  cases r with
  | none => exact .pure _
  | some s =>
    refine .bind (supervised_objectOf t s) fun o => ?_
    cases o with
    | none => exact .pure _
    | some object => exact supervised_answer index object

theorem supervised_interfaceMember (t : Tag) (r : Option Id) (index : Nat) :
    Supervised ph k (interfaceMember t r index) := by
  refine .bind .running fun _ => .bind (supervised_require _ _) fun _ => ?_
  cases r with
  | none => exact .pure _
  | some s =>
    refine .bind (supervised_objectOf t s) fun o => ?_
    cases o with
    | none => exact .pure _
    | some object => exact supervised_answer index object

theorem supervised_number {x : Act Int32} (h : Supervised ph k x) :
    Supervised ph k (x >>= fun n => pure (Reply.number n)) :=
  .bind h fun _ => .pure _

theorem supervised_sharedMember (c : SharedClass) (position : Nat) (r : Option Id) :
    Supervised ph k (sharedMember c position r) := by
  match position with
  | 0 => exact .bind (supervised_baseMember supervised_retain) fun _ => .pure _
  | 1 => exact supervised_number (supervised_baseMember supervised_release)
  | 2 | 3 => exact supervised_number (supervised_baseMember (supervised_ask _))
  | index + 4 =>
    dsimp only [sharedMember]
    split
    · exact supervised_number (supervised_tableMember _ _ _)
    · exact supervised_number (supervised_interfaceMember _ _ _)

theorem supervised_ownedMember (c : OwnedClass) (position : Nat) (r : Option Id) :
    Supervised ph k (ownedMember c position r) := by
  match position with
  | 0 => exact .bind (supervised_baseMember supervised_dispose) fun _ => .pure _
  | index + 1 => exact supervised_number (supervised_interfaceMember _ _ _)

theorem supervised_sharedFarMember (position : Nat) (x : Id) :
    Supervised ph k (sharedFarMember position x) := by
  refine .entity x fun e => ?_
  cases e with
  | sharedFar f =>
    match position with
    | 0 => exact .bind (supervised_retain x) fun _ => .pure _
    | 1 => exact supervised_number (supervised_release x)
    | 2 | 3 => exact supervised_number (supervised_ask _ x)
    | index + 4 => exact supervised_number (supervised_farAnswer x _ _)
  | _ => exact .refuse _

theorem supervised_ownedFarMember (position : Nat) (x : Id) :
    Supervised ph k (ownedFarMember position x) := by
  refine .entity x fun e => ?_
  cases e with
  | ownedFar f =>
    match position with
    | 0 => exact .bind (supervised_dispose x) fun _ => .pure _
    | index + 1 => exact supervised_number (supervised_farAnswer x _ _)
  | _ => exact .refuse _

theorem supervised_call (s : Id) (position : Nat) (r : Option Id) :
    Supervised ph k (call s position r) := by
  refine .entity s fun e => .bind (supervised_ofOption _ _) fun t => ?_
  split
  · cases e with
    | sharedWrapper v => exact .contained (supervised_sharedMember _ _ _)
    | ownedWrapper v => exact .contained (supervised_ownedMember _ _ _)
    | sharedFar f => exact .bind (supervised_ofOption _ _) (supervised_sharedFarMember _)
    | ownedFar f => exact .bind (supervised_ofOption _ _) (supervised_ownedFarMember _)
    | _ => exact .refuse _
  · exact .pure _

/-! ## The process -/

theorem supervised_guarded (first second : String) (a : α) :
    Supervised ph k (guarded first second a) :=
  supervised_ensuring (.guard second) (.bind (.check _) fun _ => .pure a) fun _ =>
    .bind (.check _) fun _ => .emit rfl

theorem supervised_computed (message : Option String) (a : α) :
    Supervised ph k (computed message a) := by
  refine .contained ?_
  cases message with
  | none => exact .pure a
  | some text => exact .bind (.check _) fun _ => .pure a

/-! ## Devices -/

theorem supervised_counter (x : Id) : Supervised ph k (counter x) := by
  refine .entity x fun e => ?_
  cases e <;> first | exact .pure _ | exact .refuse _

theorem supervised_checker (x : Id) : Supervised ph k (checker x) := by
  refine .entity x fun e => ?_
  cases e <;> first | exact .pure _ | exact .refuse _

theorem supervised_checkerSignal (x : Id) : Supervised ph k (checkerSignal x) := by
  rw [checkerSignal, checker, bind_assoc]
  refine .entity x fun e => ?_
  cases e with
  | checker b =>
    refine .bind (.pure b) fun _ => .bind (.put ?_ rfl) fun _ => supervised_require _ _
    exact Known.learn_self k x false
  | _ => exact .refuse _

end Act

/-! ## Crossing the boundary -/

open Act

variable {ph : Phase} {k : Known}

/-- Making a wrapper or proxy of what has a single owner. -/
theorem supervised_introduce (name : String) {e : Entity} (he : e.isVacant = false) (c : Crossing)
    (t : Tag) :
    Supervised .normal k
      (do
        requireRunning
        let x ← create name e
        emit (.crossed c t)
        pure x) :=
  supervised_introduce_bind name he fun x => .bind (.emit rfl) fun _ => .pure x

namespace SharedClass

theorem supervised_wrap (c : SharedClass) (name : String) (x : Id) :
    Supervised .normal k (c.wrap name x) := by
  refine supervised_ensuring (.handle x) ?_ fun _ => supervised_drop x
  refine supervised_introduce_bind name rfl fun v => ?_
  exact .bind (supervised_retain v) fun _ => .bind (.emit rfl) fun _ => .pure v

theorem supervised_retrieve (c : SharedClass) (s : Id) : Supervised ph k (c.retrieve s) := by
  refine .entity s fun e => ?_
  cases e with
  | sharedWrapper v =>
    refine .bind (supervised_retain _) fun _ => ?_
    refine .bind (.onUnwind (.handle _) ?_ (supervised_drop _)) fun _ => ?_
    · exact supervised_discard (supervised_release s)
    exact .bind (.emit rfl) fun _ => .pure _
  | _ => exact .refuse _

theorem supervised_unwrap (c : SharedClass) (s : Id) : Supervised ph k (c.unwrap s) := by
  refine .bind .running fun _ => .bind (supervised_wrapperTag s) fun found => ?_
  split
  · exact c.supervised_retrieve s
  · cases c.derived? found with
    | some d => exact .bind .running fun _ => d.supervised_retrieve s
    | none => exact .bind (.check _) fun _ => .pure none

theorem supervised_inspect (c : SharedClass) (s : Id) : Supervised ph k (c.inspect s) := by
  refine .bind (supervised_recognises c.tag s) fun b => ?_
  split
  · refine .entity s fun e => ?_
    cases e with
    | sharedWrapper v =>
      refine .bind (supervised_ask _ s) fun a => .bind (supervised_ask _ s) fun a' => ?_
      exact supervised_get_bind (fun _ st => st.nameOf v.object) (f := fun object =>
        pure (some (SharedReport.mk v.cls.tag v.count object (a != 0) (a' != 0))))
        fun _ => .pure _
    | _ => exact .refuse _
  · exact .pure none

end SharedClass

namespace OwnedClass

theorem supervised_give (c : OwnedClass) (name : String) (x : Id) :
    Supervised .normal k (c.give name x) :=
  supervised_introduce name rfl _ _

theorem supervised_lend (c : OwnedClass) (name : String) (x : Id) :
    Supervised .normal k (c.lend name x) :=
  supervised_introduce name rfl _ _

theorem supervised_retrieve (c : OwnedClass) (s : Id) : Supervised ph k (c.retrieve s) := by
  refine .entity s fun e => ?_
  cases e with
  | ownedWrapper v =>
    refine .bind (supervised_require _ _) fun _ => ?_
    split
    · let known : Known := k.learn s (Entity.ownedWrapper v).isCarrier
      have hvacate : Supervised ph known _ :=
        .vacate (Known.learn_self k s true) v (supervised_dispose s)
      have hrest : Supervised ph known
          (emit (.crossed .tookBack c.tag) >>= fun _ => pure v.object) :=
        .bind (.emit rfl) fun _ => .pure _
      simpa only [bind_assoc] using hvacate.bind fun _ => hrest
    · exact .pure none
  | _ => exact .refuse _

theorem supervised_takeBack (c : OwnedClass) (s : Id) : Supervised ph k (c.takeBack s) := by
  refine .bind .running fun _ => .bind (supervised_wrapperTag s) fun found => ?_
  split
  · exact c.supervised_retrieve s
  · cases c.derived? found with
    | some d => exact .bind .running fun _ => d.supervised_retrieve s
    | none => exact .bind (.check _) fun _ => .pure none

theorem supervised_borrow (c : OwnedClass) (s : Id) : Supervised ph k (c.borrow s) := by
  refine .bind (supervised_wrapperTag s) fun found => ?_
  split
  · exact supervised_objectOf c.tag s
  · cases c.derived? found with
    | some d => exact supervised_objectOf d.tag s
    | none => exact .bind (.check _) fun _ => .pure none

theorem supervised_inspect (c : OwnedClass) (s : Id) : Supervised ph k (c.inspect s) := by
  refine .bind (supervised_recognises c.tag s) fun b => ?_
  split
  · refine .entity s fun e => ?_
    cases e <;> first | exact .pure _ | exact .refuse _
  · exact .pure none

end OwnedClass

namespace ProxyClass

theorem supervised_receive (c : ProxyClass) (name : String) (s : Id) :
    Supervised .normal k (c.receive name s) := by
  refine supervised_introduce_bind name rfl fun p => ?_
  refine .bind (supervised_retain p) fun _ => ?_
  refine .bind (supervised_discard (supervised_through (supervised_release s))) fun _ => ?_
  exact .bind (.emit rfl) fun _ => .pure p

theorem supervised_handOut (c : ProxyClass) (x : Id) : Supervised ph k (c.handOut x) := by
  refine supervised_ensuring (.handle x) ?_ fun _ => supervised_drop x
  refine .entity x fun e => ?_
  cases e with
  | sharedProxy p =>
    dsimp only
    split
    · refine .bind (supervised_through (supervised_retain _)) fun _ => ?_
      exact .bind (.emit rfl) fun _ => .pure _
    · exact .refuse _
  | _ => exact .refuse _

/-- A failed check, after which there is nothing to return. -/
theorem supervised_reject (failure : Failure) :
    Supervised ph k (check failure >>= fun _ => pure (none : Option Id)) :=
  .bind (.check failure) fun _ => .pure none

theorem supervised_giveBack (c : ProxyClass) (x : Id) : Supervised ph k (c.giveBack x) := by
  have hrunning {k : Known} : Supervised ph k (onUnwind requireRunning (drop x)) :=
    .onUnwind (.handle x) .running (supervised_drop x)
  refine .bind hrunning fun _ => .entity x fun e => ?_
  cases e.reportedTag? with
  | none => exact supervised_ensuring (.handle x) (supervised_reject _) fun _ => supervised_drop x
  | some found =>
    dsimp only
    split
    · exact c.supervised_handOut x
    · cases c.sharedDerived? found with
      | some d => exact .bind hrunning fun _ => d.supervised_handOut x
      | none => exact .bind (supervised_drop x) fun _ => supervised_reject _

theorem supervised_adopt (c : ProxyClass) (name : String) (x : Id) :
    Supervised .normal k (c.adopt name x) :=
  supervised_introduce name rfl _ _

/-- An act that goes on with a proxy of this very class. -/
theorem supervised_ownedProxy_bind (c : ProxyClass) (x : Id) {α : Type} {f : OwnedProxy → Act α}
    (h : ∀ p, Supervised ph (k.learn x true) (f p)) :
    Supervised ph k (c.ownedProxy x >>= f) := by
  rw [ownedProxy, bind_assoc]
  refine .entity x fun e => ?_
  cases e with
  | ownedProxy p =>
    dsimp only
    split
    · exact .bind (.pure p) h
    · exact .refuse _
  | _ => exact .refuse _

theorem supervised_extract (c : ProxyClass) (x : Id) : Supervised ph k (c.extract x) := by
  refine c.supervised_ownedProxy_bind x fun p => ?_
  refine .bind (.put (Known.learn_self k x true) rfl) fun _ => ?_
  have hrest (o : Option Id) :
      Supervised ph (k.learn x true) (emit (.crossed .returned c.ownedTag) >>= fun _ => pure o) :=
    .bind (.emit rfl) fun _ => .pure o
  refine supervised_ensuring (.owner x) ?_ fun _ => supervised_dispose x
  refine .bind (supervised_require _ _) fun _ => ?_
  cases p.target with
  | none => exact hrest none
  | some s =>
    exact .bind (supervised_struct s) fun _ => .bind (supervised_require _ _) fun _ => hrest _

theorem supervised_surrender (c : ProxyClass) (x : Id) : Supervised ph k (c.surrender x) := by
  have hrunning {k : Known} : Supervised ph k (onUnwind requireRunning (dispose x)) :=
    .onUnwind (.owner x) .running (supervised_dispose x)
  refine .bind hrunning fun _ => .entity x fun e => ?_
  cases e.reportedTag? with
  | none => exact supervised_ensuring (.owner x) (supervised_reject _) fun _ => supervised_dispose x
  | some found =>
    dsimp only
    split
    · exact c.supervised_extract x
    · cases c.ownedDerived? found with
      | some d => exact .bind hrunning fun _ => d.supervised_extract x
      | none => exact .bind (supervised_dispose x) fun _ => supervised_reject _

theorem supervised_reveal (c : ProxyClass) (x : Id) : Supervised ph k (c.reveal x) := by
  have htarget (d : ProxyClass) {k : Known} :
      Supervised ph k (d.ownedProxy x >>= fun p => pure p.target) :=
    d.supervised_ownedProxy_bind x fun _ => .pure _
  refine .bind .running fun _ => .entity x fun e => ?_
  cases e.reportedTag? with
  | none => exact supervised_reject _
  | some found =>
    dsimp only
    split
    · exact htarget c
    · cases c.ownedDerived? found with
      | some d => exact .bind .running fun _ => htarget d
      | none => exact supervised_reject _

theorem supervised_takeTarget (x : Id) : Supervised ph k (takeTarget x) := by
  refine .entity x fun e => ?_
  cases e with
  | ownedProxy p => exact .bind (.put (Known.learn_self k x true) rfl) fun _ => .pure _
  | _ => exact .refuse _

end ProxyClass

end ObjectBoundary
