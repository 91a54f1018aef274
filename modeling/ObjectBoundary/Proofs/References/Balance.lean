import ObjectBoundary.Proofs.References.Sound
import Mathlib.Algebra.Order.BigOperators.Group.List
import Mathlib.Algebra.Order.Ring.Nat
import Mathlib.Algebra.Ring.Int.Defs
import Mathlib.Algebra.Group.Pi.Basic

/-!
# The balance of references

Each reference to a wrapper owns one to its object, and each reference to a proxy owns one to its
structure. What an entity counts beyond those is *outside*: it belongs to handles, to leaked
references, or to the far side. Changing the count of one entity changes its outside, and the
other way round the outside of the entity that it refers to.

* `Store.wrapped`, `Store.proxied`: the references that live wrappers and proxies own.
* `Store.outside`: the references to an entity that neither wrappers nor proxies own.
* `outside_modify`, `outside_push`: what becomes of them.
-/

namespace ObjectBoundary

/-! ## References that entities own -/

/-- The entity of which each reference to this one owns a reference. -/
def Entity.backing? : Entity → Option Id
  | .sharedWrapper w => some w.object
  | .sharedProxy p => some p.target
  | _ => none

namespace Node

/-- The references to an object that a wrapper owns. -/
def wraps (o : Id) (n : Node) : Nat :=
  match n.entity with
  | .sharedWrapper w => if n.live = true ∧ w.object = o then w.count.toNat else 0
  | _ => 0

/-- The references to a structure that a proxy owns. -/
def proxies (s : Id) (n : Node) : Nat :=
  match n.entity with
  | .sharedProxy p => if n.live = true ∧ p.target = s then p.count.toNat else 0
  | _ => 0

/-- The references to an entity that another one owns. -/
def backs (z : Id) (n : Node) : Nat := n.wraps z + n.proxies z

end Node

namespace Store

/-- A number of every entity, summed up. -/
def total (st : Store) (g : Node → Nat) : Nat := (st.nodes.map g).sum

/-- The own counts of the live wrappers of an object. -/
def wrapped (st : Store) (o : Id) : Nat := st.total (Node.wraps o)

/-- The own counts of the live proxies of a structure. -/
def proxied (st : Store) (s : Id) : Nat := st.total (Node.proxies s)

/-- The references to an entity, none to one that was never made. -/
def references (st : Store) (x : Id) : Int := (st.get? x).elim 0 fun n => n.entity.references

theorem references_eq {st : Store} {x : Id} {n : Node} (hn : st.get? x = some n) :
    st.references x = n.entity.references := by
  rw [references, hn]
  rfl

/-- The references to an entity that neither wrappers nor proxies own. -/
def outside (st : Store) (z : Id) : Int :=
  st.references z - (st.wrapped z + st.proxied z : Nat)

/-! ## Sums over all entities -/

theorem total_modify (st : Store) (g : Node → Nat) {f : Node → Node} {x : Id} {n : Node}
    (hn : st.get? x = some n) :
    (st.modify x f).total g + g n = st.total g + g (f n) := by
  obtain ⟨l⟩ := st
  show ((l.modify x f).map g).sum + g n = (l.map g).sum + g (f n)
  change l[x]? = some n at hn
  induction l generalizing x with
  | nil => cases hn
  | cons m l ih =>
    cases x with
    | zero =>
      cases hn
      simp only [List.modify_zero_cons, List.map_cons, List.sum_cons]
      omega
    | succ x =>
      have := ih hn
      simp only [List.modify_succ_cons, List.map_cons, List.sum_cons]
      omega

theorem total_push (st : Store) (g : Node → Nat) (n : Node) :
    (st.push n).total g = st.total g + g n := by
  show ((st.nodes ++ [n]).map g).sum = _
  simp [total]

theorem total_add (st : Store) (g g' : Node → Nat) :
    st.total g + st.total g' = st.total fun n => g n + g' n := by
  unfold total
  induction st.nodes with
  | nil => rfl
  | cons m l ih =>
    simp only [List.map_cons, List.sum_cons] at ih ⊢
    omega

theorem total_eq_zero_iff (st : Store) (g : Node → Nat) :
    st.total g = 0 ↔ ∀ x n, st.get? x = some n → g n = 0 := by
  unfold total get?
  rw [List.sum_eq_zero_iff]
  simp only [List.mem_map, forall_exists_index, and_imp, forall_apply_eq_imp_iff₂]
  constructor
  · intro h x n hn
    exact h n (List.mem_of_getElem? hn)
  · intro h n hn
    obtain ⟨x, hx⟩ := List.mem_iff_getElem?.mp hn
    exact h x n hx

theorem le_total (st : Store) (g : Node → Nat) {x : Id} {n : Node} (hn : st.get? x = some n) :
    g n ≤ st.total g := by
  have hmem : n ∈ st.nodes := List.mem_of_getElem? hn
  exact List.single_le_sum (fun _ _ => Nat.zero_le _) _ (List.mem_map_of_mem hmem)

/-- Two entities count separately. -/
theorem add_le_total (st : Store) (g : Node → Nat) {x y : Id} {n m : Node}
    (hn : st.get? x = some n) (hm : st.get? y = some m) (hne : x ≠ y) :
    g n + g m ≤ st.total g := by
  obtain ⟨l⟩ := st
  change l[x]? = some n at hn
  change l[y]? = some m at hm
  show g n + g m ≤ (l.map g).sum
  induction l generalizing x y with
  | nil => cases hn
  | cons k l ih =>
    have hrest {z : Id} {r : Node} (hr : l[z]? = some r) : g r ≤ (l.map g).sum :=
      le_total ⟨l⟩ g hr
    rw [List.map_cons, List.sum_cons]
    cases x with
    | zero =>
      cases hn
      cases y with
      | zero => exact absurd rfl hne
      | succ y => exact Nat.add_le_add_left (hrest hm) _
    | succ x =>
      cases y with
      | zero =>
        cases hm
        rw [Nat.add_comm]
        exact Nat.add_le_add_left (hrest hn) _
      | succ y =>
        have := ih (fun heq => hne (congrArg _ heq)) hn hm
        omega

theorem outside_eq (st : Store) (z : Id) :
    st.outside z = st.references z - st.total (Node.backs z) := by
  rw [outside, wrapped, proxied, total_add]
  rfl

end Store

/-! ## Point changes -/

/-- A number at one identity, if there is one, and zero elsewhere. -/
def credit (x : Option Id) (d : Int) (z : Id) : Int := if x = some z then d else 0

@[simp] theorem credit_none (d : Int) : credit none d = 0 := rfl

theorem credit_self (x : Id) (d : Int) : credit (some x) d x = d := if_pos rfl

theorem credit_of_ne {x z : Id} (h : z ≠ x) (d : Int) : credit (some x) d z = 0 :=
  if_neg fun he => h (Option.some.inj he).symm

theorem credit_neg (x : Option Id) (d : Int) : credit x (-d) = -credit x d := by
  funext z
  by_cases h : x = some z <;> simp [credit, h]

/-- The count of an entity changes by a number, and with it what the entity owns. -/
structure Node.Shifts (n n' : Node) (d : Int) : Prop where
  continues : n.Continues n'
  counted : n'.Counted
  references : n'.entity.references = n.entity.references + d
  backs : ∀ z, (n'.backs z : Int) = n.backs z + credit n.entity.backing? d z

namespace Store

theorem references_modify {st : Store} {x : Id} {f : Node → Node} {n : Node}
    (hn : st.get? x = some n) {d : Int}
    (hd : (f n).entity.references = n.entity.references + d) (z : Id) :
    (st.modify x f).references z = st.references z + credit (some x) d z := by
  unfold references
  rw [get?_modify]
  by_cases h : x = z
  · subst h
    rw [if_pos rfl, hn, credit_self]
    exact hd
  · rw [if_neg h, credit_of_ne (Ne.symm h), add_zero]

theorem outside_modify {st : Store} {x : Id} {f : Node → Node} {n : Node}
    (hn : st.get? x = some n) {d : Int} (hf : n.Shifts (f n) d) (z : Id) :
    (st.modify x f).outside z =
      st.outside z + (credit (some x) d z - credit n.entity.backing? d z) := by
  have hr := references_modify hn hf.references z
  have ht := total_modify st (Node.backs z) (f := f) hn
  have hb := hf.backs z
  rw [outside_eq, outside_eq, hr]
  omega

theorem references_push (st : Store) (n : Node) (z : Id) :
    (st.push n).references z =
      st.references z + credit (some st.size) n.entity.references z := by
  unfold references
  rw [get?_push]
  by_cases h : z = st.size
  · subst h
    rw [if_pos rfl, get?_size, credit_self]
    exact (zero_add _).symm
  · rw [if_neg h, credit_of_ne h, add_zero]

/-- A new entity brings its count, and what it owns. -/
theorem outside_push (st : Store) (n : Node) (z : Id) :
    (st.push n).outside z =
      st.outside z + (credit (some st.size) n.entity.references z - n.backs z) := by
  have hr := references_push st n z
  have ht := total_push st (Node.backs z) n
  rw [outside_eq, outside_eq, hr]
  omega

end Store

end ObjectBoundary
