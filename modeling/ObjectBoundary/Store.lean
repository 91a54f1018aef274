import ObjectBoundary.Entity

/-!
# The store of entities

Entities are kept in the order of creation and are never removed, so an identity stays valid.
Every entity refers to at most one other, and always to one created before it. Following these
links from an entity gives its *chain*, which ends at an object of this side or a structure of
the far side.

* `Store.get?`, `Store.modify`, `Store.push`: the store as a list with fixed places.
* `Store.chain`: an entity and all that lie below it.
* `Store.chain_eq_cons`: where links lead to earlier entities, a chain goes on from link to link.
-/

namespace ObjectBoundary

/-- All entities in the order of creation. -/
structure Store where
  nodes : List Node

namespace Store

def empty : Store := ⟨[]⟩

def size (st : Store) : Nat := st.nodes.length

def get? (st : Store) (x : Id) : Option Node := st.nodes[x]?

def modify (st : Store) (x : Id) (f : Node → Node) : Store := ⟨st.nodes.modify x f⟩

/-- Adds an entity; its identity is the size before. -/
def push (st : Store) (n : Node) : Store := ⟨st.nodes ++ [n]⟩

/-- The name of an entity. -/
def nameOf (st : Store) (x : Id) : String := (st.get? x).elim "" Node.name

/-- The entity to which another one refers. -/
def below? (st : Store) (x : Id) : Option Id := (st.get? x).bind fun n => n.entity.below?

/-- An entity and those below it, at most `bound` of them. -/
def chainWithin (st : Store) : Nat → Id → List Id
  | 0, _ => []
  | bound + 1, x =>
    x :: match st.below? x with
      | some y => chainWithin st bound y
      | none => []

/-- An entity and all those below it. As every link leads to an earlier entity, there are no
more of them than identities up to this one. -/
def chain (st : Store) (x : Id) : List Id := st.chainWithin (x + 1) x

/-! ## Reading back -/

theorem get?_modify (st : Store) (x y : Id) (f : Node → Node) :
    (st.modify x f).get? y = if x = y then (st.get? y).map f else st.get? y := by
  show (st.nodes.modify x f)[y]? = _
  rw [List.getElem?_modify]
  by_cases h : x = y
  · simp [h, get?]
  · simp [h, get?]

theorem get?_push (st : Store) (n : Node) (y : Id) :
    (st.push n).get? y = if y = st.size then some n else st.get? y := by
  show (st.nodes ++ [n])[y]? = _
  split
  next h =>
    subst h
    simp [size]
  next h =>
    rcases Nat.lt_or_gt_of_ne h with hlt | hgt
    · exact List.getElem?_append_left hlt
    · have hlen : st.nodes.length ≤ y := Nat.le_of_lt hgt
      have hout : ([n] : List Node).length ≤ y - st.nodes.length := Nat.sub_pos_of_lt hgt
      rw [List.getElem?_append_right hlen, List.getElem?_eq_none hout, get?,
        List.getElem?_eq_none hlen]

@[simp] theorem size_modify (st : Store) (x : Id) (f : Node → Node) :
    (st.modify x f).size = st.size := by
  simp [size, modify]

@[simp] theorem size_push (st : Store) (n : Node) : (st.push n).size = st.size + 1 := by
  simp [size, push]

/-! ## Chains -/

theorem chainWithin_succ (st : Store) (bound : Nat) (x : Id) :
    st.chainWithin (bound + 1) x = x :: (st.below? x).elim [] (st.chainWithin bound) := by
  rw [chainWithin]
  cases st.below? x <;> rfl

/-- Where links lead to earlier entities, any bound beyond an entity leaves its chain whole. -/
theorem chainWithin_eq_chain {st : Store} (earlier : ∀ x y, st.below? x = some y → y < x)
    {bound : Nat} {x : Id} (h : x < bound) : st.chainWithin bound x = st.chain x := by
  induction x using Nat.strongRecOn generalizing bound with
  | ind x ih =>
    cases bound with
    | zero => exact absurd h (Nat.not_lt_zero x)
    | succ k =>
      rw [chain, chainWithin_succ, chainWithin_succ]
      cases hy : st.below? x with
      | none => rfl
      | some y =>
        have hlt := earlier x y hy
        have hk := Nat.lt_of_lt_of_le hlt (Nat.le_of_lt_succ h)
        rw [Option.elim_some, Option.elim_some, ih y hlt hk, ih y hlt hlt]

/-- Chains depend on the links alone. -/
theorem chain_congr {st st' : Store} (same : st.below? = st'.below?) (x : Id) :
    st.chain x = st'.chain x := by
  have within (bound : Nat) (y : Id) : st.chainWithin bound y = st'.chainWithin bound y := by
    induction bound generalizing y with
    | zero => rfl
    | succ bound ih =>
      rw [chainWithin_succ, chainWithin_succ, same]
      cases st'.below? y with
      | none => rfl
      | some z => exact congrArg (y :: ·) (ih z)
  exact within (x + 1) x

/-- A change that keeps the link of an entity keeps all links. -/
theorem below?_modify (st : Store) (x : Id) {f : Node → Node}
    (keeps : ∀ n, (f n).entity.below? = n.entity.below?) : (st.modify x f).below? = st.below? := by
  funext y
  rw [below?, below?, get?_modify]
  by_cases h : x = y
  · rw [if_pos h]
    cases st.get? y with
    | none => rfl
    | some n => exact keeps n
  · rw [if_neg h]

/-- The chain of an entity goes on with the chain of the one it refers to. -/
theorem chain_eq_cons {st : Store} (earlier : ∀ x y, st.below? x = some y → y < x) (x : Id) :
    st.chain x = x :: (st.below? x).elim [] st.chain := by
  rw [chain, chainWithin_succ]
  cases hy : st.below? x with
  | none => rfl
  | some y => exact congrArg (x :: ·) (chainWithin_eq_chain earlier (earlier x y hy))

end Store

end ObjectBoundary
