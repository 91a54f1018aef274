import ObjectBoundary.Proofs.Ownership.Fate
import ObjectBoundary.Proofs.Session.History

/-!
# Exclusive ownership

Whatever a session does, short of failed checks of the start of shutdown, every owned object either
has been destroyed or has exactly one owner.

* `Exclusive`: what holds of owned objects after a session, given its events.
* `exclusive_ownership`: it holds after every session.
-/

namespace ObjectBoundary.Session

open ObjectBoundary

variable {s : State} {out : Ledger} {xs : List Step}

/-- Every owned object has one owner or none, and steps keep to that. -/
structure Exclusive (s : State) (events : List Event) : Prop where
  /-- An object that exists has exactly one owner, and one that does not has none. -/
  owner : ∀ o, s.world.store.HasRole o .ownedObject →
    s.world.store.IsLive o ∧ (∃! k, s.Owns k o) ∨
      ¬ s.world.store.IsLive o ∧ ∀ k, ¬ s.Owns k o
  /-- A local object that no longer exists was destroyed once, and one that exists never was. -/
  dropped : ∀ o n object, s.world.store.get? o = some n → n.entity = .ownedObject object →
    events.count (.dropped o) = if n.live then 0 else 1
  /-- A wrapper that was given an object for good owns it as long as the wrapper exists. -/
  given : ∀ y n v, s.world.store.get? y = some n → n.live = true → n.entity = .ownedWrapper v →
    v.owns = true → ∃ o, s.Owns (.wrapper y) o
  /-- A wrapper that only borrows its object owns none. -/
  lent : ∀ y o, s.Borrows y o → ∀ o', ¬ s.Owns (.wrapper y) o'
  decides : ∀ x, s.Undisturbed x → s.Decides x

/-- As long as slots own what is loose, every object has one owner or none. -/
theorem Kept.owner (hk : Kept s) (hb : Balanced s out) {o : Id}
    (hr : s.world.store.HasRole o .ownedObject) :
    s.world.store.IsLive o ∧ (∃! k, s.Owns k o) ∨
      ¬ s.world.store.IsLive o ∧ ∀ k, ¬ s.Owns k o := by
  by_cases hlive : s.world.store.IsLive o
  · left
    obtain ⟨k, hk'⟩ := hk.exists_owner hb (Store.presence_eq_one_iff.mpr ⟨hlive, hr⟩)
    exact ⟨hlive, k, hk', fun k' h => hk.unique hb h hk'⟩
  · right
    refine ⟨hlive, fun k h => hlive ?_⟩
    exact (Store.presence_eq_one_iff.mp (hk.presence_of_owns hb h)).1

/-- The log tells of a local object that is destroyed, once. -/
theorem count_dropped_owned {e : Environment} {c : Option Settings}
    (hxs : (State.initial e c).All State.Undisturbed xs) {o : Id} {n : Node} {object : LocalObject}
    (hn : ((State.initial e c).after xs).world.store.get? o = some n)
    (he : n.entity = .ownedObject object) :
    ((State.initial e c).logged xs).count (.dropped o) = if n.live then 0 else 1 := by
  have hlogged : _ + ((State.initial e c).after xs).world.store.standing o = 1 :=
    (balanced_initial e c).count_dropped hxs o
  obtain ⟨name, e', live⟩ := n
  cases he
  rw [Store.standing, hn] at hlogged
  cases live with
  | true => exact Nat.succ.inj hlogged
  | false => exact hlogged

/-- After any session, every owned object has been destroyed or has exactly one owner, and the next
step destroys it if and only if it destroys the owner. -/
theorem exclusive_ownership (e : Environment) (c : Option Settings)
    (hxs : (State.initial e c).All State.Undisturbed xs) :
    Exclusive ((State.initial e c).after xs) ((State.initial e c).logged xs) := by
  have hb := (balanced_initial e c).along hxs
  have hk := (kept_initial e c).along (balanced_initial e c) hxs
  have hreachable : Reachable State.Undisturbed ((State.initial e c).after xs) _ :=
    (Reachable.initial e c).along hxs
  have hvacant := hreachable.not_isVacant
  refine ⟨fun o hr => hk.owner hb hr, fun o n object hn he => count_dropped_owned hxs hn he,
    fun y n v hn hlive he howns => ?_, fun y o hy o' h => ?_,
    fun x hx => decides hb hk hx hvacant⟩
  · cases hobject : v.object with
    | some o => exact ⟨o, n, hn, hlive, Entity.keeps?_eq_some.mpr ⟨v, he, howns, hobject⟩⟩
    | none =>
      have hisVacant : n.IsVacant := ⟨hlive, by rw [he]; exact congrArg Option.isNone hobject⟩
      exact (hvacant y ⟨n, hn, hisVacant⟩).elim
  · obtain ⟨n, v, hn, he, howns, -⟩ := hy
    obtain ⟨m, hm, -, hkeeps⟩ := h
    obtain ⟨v', he', howns', -⟩ := Entity.keeps?_eq_some.mp hkeeps
    cases hn.symm.trans hm
    cases he.symm.trans he'
    cases howns.symm.trans howns'

/-- One object is lent and then given for good, and another one is given to a wrapper whose proxy is
dropped. -/
def lentAndGiven : List Step :=
  [.create (.ownedObject ⟨.child 3 4, none⟩) "o", .owned (.lend .child (some "o") "l"),
    .owned (.loanStruct "l" "b"), .owned (.give .child (some "o") "w"),
    .create (.ownedObject ⟨.client 5, none⟩) "q", .owned (.give .client (some "q") "v"),
    .owned (.adopt .client (some "v") "p"), .handle (.drop "p")]

theorem exclusive_ownership_lentAndGiven :
    (State.initial {} (some .default)).areDone lentAndGiven = true ∧
      Exclusive ((State.initial {} (some .default)).after lentAndGiven)
        ((State.initial {} (some .default)).logged lentAndGiven) :=
  have hdone : (State.initial {} (some .default)).areDone lentAndGiven = true := rfl
  ⟨hdone, exclusive_ownership {} (some .default) (State.all_of_areDone hdone)⟩

end ObjectBoundary.Session
