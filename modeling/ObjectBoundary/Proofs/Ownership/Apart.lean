import ObjectBoundary.Proofs.Acts.Bypassing
import ObjectBoundary.Proofs.Ownership.Custody

/-!
# Acts apart from ownership

Counting references and exchanging what is counted changes nothing that has a single owner,
however it ends.

* `World.Bypasses.apart`: what bypasses owned objects and owned structures is apart from ownership.
* `apart_retain`, `apart_release`: references taken and given up.
* `apart_wrap`, `apart_unwrap`, `apart_receive`, `apart_giveBack`: shared objects that cross the
  boundary.
* `apart_call`: the members of shared structures.
-/

namespace ObjectBoundary

open Act

variable {w w' : World} {x : Id}

/-! ## Owned entities by their roles -/

namespace Store

variable {st st' : Store}

/-- A total is made of what stands at each place. -/
theorem total_congr {g : Node → Nat} (h : ∀ x, (st'.get? x).elim 0 g = (st.get? x).elim 0 g) :
    st'.total g = st.total g := by
  have sums (ns ms : List Node) (h : ∀ x : Nat, (ns[x]?).elim 0 g = (ms[x]?).elim 0 g) :
      (ns.map g).sum = (ms.map g).sum := by
    induction ns generalizing ms with
    | nil =>
      symm
      apply List.sum_eq_zero
      intro k hk
      obtain ⟨m, hm, rfl⟩ := List.mem_map.mp hk
      obtain ⟨x, hx⟩ := List.getElem?_of_mem hm
      simpa [hx] using (h x).symm
    | cons n ns ih =>
      cases ms with
      | nil =>
        have hn : g n = 0 := h 0
        have hrest := ih [] fun x => h (x + 1)
        simp [hn, hrest]
      | cons m ms =>
        have hn : g n = g m := h 0
        have hrest := ih ms fun x => h (x + 1)
        simp [hn, hrest]
  exact sums _ _ h

/-- What only the entities of a role add to a total follows from them. -/
theorem total_congr_having {r : Role} {g : Node → Nat}
    (hg : ∀ n : Node, n.entity.role ≠ r → g n = 0) (h : st'.having r = st.having r) :
    st'.total g = st.total g := by
  have hplace (st : Store) (x : Id) : (st.get? x).elim 0 g = (st.having r x).elim 0 g := by
    cases hn : st.get? x with
    | none => rw [having, hn]; rfl
    | some n =>
      by_cases hr : n.entity.role = r
      · rw [having_eq_some.mpr ⟨hn, hr⟩]
      · rw [(having_eq_none hn).mpr hr]
        exact hg n hr
  exact total_congr fun x => by rw [hplace, hplace, h]

theorem owned_congr_having (hobject : st'.having .ownedObject = st.having .ownedObject)
    (hstruct : st'.having .ownedStructure = st.having .ownedStructure) : st'.owned = st.owned := by
  have hplace (st : Store) (x : Id) : st.owned x =
      ((st.having .ownedObject x).or (st.having .ownedStructure x)).filter fun n =>
        n.entity.isOwned := by
    unfold owned having
    cases st.get? x with
    | none => rfl
    | some n =>
      obtain ⟨name, e, live⟩ := n
      cases e <;> rfl
  funext x
  rw [hplace, hplace, hobject, hstruct]

theorem presence_congr_having (h : st'.having .ownedObject = st.having .ownedObject) :
    st'.presence = st.presence := by
  have hplace (st : Store) (x : Id) :
      st.presence x = (st.having .ownedObject x).elim 0 Node.presence := by
    cases hn : st.get? x with
    | none => rw [presence, having, hn]; rfl
    | some n =>
      rw [presence_eq hn]
      by_cases hr : n.entity.role = .ownedObject
      · rw [having_eq_some.mpr ⟨hn, hr⟩]
        rfl
      · rw [(having_eq_none hn).mpr hr]
        exact if_neg fun h => hr h.2
  funext x
  rw [hplace, hplace, h]

end Store

/-- Where no owned object and no owned structure has changed, nobody owns anything else. -/
theorem World.Bypasses.apart (hobject : w.Bypasses .ownedObject w')
    (hstruct : w.Bypasses .ownedStructure w') : w.Apart w' := by
  refine ⟨Store.owned_congr_having hobject.having hstruct.having, funext fun z => ?_⟩
  have hkeeps : w'.store.keepers z = w.store.keepers z :=
    Store.total_congr_having (fun n hn => if_neg fun h => by
      obtain ⟨v, he, -⟩ := Entity.keeps?_eq_some.mp h.2
      exact hn (by rw [he]; rfl)) hstruct.having
  rw [Store.loose, Store.loose, hkeeps, Store.presence_congr_having hobject.having]

/-! ## Acts -/

namespace Act

variable {α : Type}

theorem apart_of_quiet {y : Act α} (h : Respects World.Quiet y w) : Respects World.Apart y w :=
  respects_mono h fun _ hq => hq.apart

/-- What bypasses all that is neither shared nor a device. -/
theorem apart_of_bypasses {y : Act α}
    (h : ∀ r, r ≠ .sharedObject → r ≠ .sharedStructure → r ≠ .device →
      Respects (World.Bypasses r) y w) : Respects World.Apart y w :=
  fun phase => (h .ownedObject nofun nofun nofun phase).apart
    (h .ownedStructure nofun nofun nofun phase)

theorem apart_retain (x : Id) : Respects World.Apart (retain x) w :=
  apart_of_bypasses fun _ ho hs _ => bypasses_retain ho hs x

theorem apart_release (x : Id) : Respects World.Apart (release x) w :=
  apart_of_bypasses fun _ ho hs _ => bypasses_release ho hs x

theorem apart_drop (x : Id) : Respects World.Apart (drop x) w :=
  apart_of_bypasses fun _ ho hs _ => bypasses_drop ho hs x

/-- A call of a member of a shared structure. -/
theorem apart_call {s : Id} {y : Option Id} (hr : w.store.HasRole s .sharedStructure) (i : Nat) :
    Respects World.Apart (call s i y) w :=
  apart_of_bypasses fun _ ho hs _ => bypasses_call ho hs hr i y

theorem apart_countUp (x : Id) : Respects World.Apart (countUp x) w :=
  apart_of_bypasses fun _ _ _ hd => bypasses_countUp hd

theorem apart_countDown (x : Id) : Respects World.Apart (countDown x) w :=
  apart_of_bypasses fun _ _ _ hd => bypasses_countDown hd

theorem apart_checkerSignal (x : Id) : Respects World.Apart (checkerSignal x) w :=
  apart_of_bypasses fun _ _ _ hd => bypasses_checkerSignal hd

end Act

namespace SharedClass

theorem apart_wrap (c : SharedClass) (name : String) (x : Id) :
    Respects World.Apart (c.wrap name x) w :=
  apart_of_bypasses fun _ ho hs _ => c.bypasses_wrap ho hs name x

theorem apart_unwrap (c : SharedClass) (s : Id) : Respects World.Apart (c.unwrap s) w :=
  apart_of_bypasses fun _ ho hs _ => c.bypasses_unwrap ho hs s

end SharedClass

namespace ProxyClass

theorem apart_receive (c : ProxyClass) (name : String) (s : Id) :
    Respects World.Apart (c.receive name s) w :=
  apart_of_bypasses fun _ ho hs _ => c.bypasses_receive ho hs name s

theorem apart_giveBack (c : ProxyClass) (x : Id) : Respects World.Apart (c.giveBack x) w :=
  apart_of_bypasses fun _ ho hs _ => c.bypasses_giveBack ho hs x

theorem apart_retainTarget (p : SharedProxy) : Respects World.Apart (retainTarget p) w :=
  apart_of_bypasses fun _ ho hs _ => bypasses_retainTarget ho hs p

theorem apart_releaseTarget (p : SharedProxy) : Respects World.Apart (releaseTarget p) w :=
  apart_of_bypasses fun _ ho hs _ => bypasses_releaseTarget ho hs p

end ProxyClass

end ObjectBoundary
