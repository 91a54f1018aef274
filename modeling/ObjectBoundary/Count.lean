/-!
# Reference counts

A reference count is a word of 64 bits. It starts at zero and wraps at both ends: releasing a
count of zero leaves the largest word. A reference may be taken as long as the count was not
above `Count.limit`, half the range, which tells a large count from one that was released below
zero.

* `Count.succ`, `Count.pred`: one reference more and one less.
* `Count.toNat`: the count as a number, through which all else is stated.
* `Count.answer`: what a count says about the references.
-/

namespace ObjectBoundary

/-- A count of references. -/
structure Count where
  word : UInt64
deriving DecidableEq

namespace Count

def zero : Count := ⟨0⟩

/-- The largest count to which a reference may be added. -/
def limit : UInt64 := 0x7fffffffffffffff

/-- The count after one more reference. -/
def succ (c : Count) : Count := ⟨c.word + 1⟩

/-- The count after one reference less. -/
def pred (c : Count) : Count := ⟨c.word - 1⟩

/-- Whether taking one more reference is beyond the limit. -/
def isFull (c : Count) : Bool := decide (limit < c.word)

def isZero (c : Count) : Bool := c.word == 0

def isOne (c : Count) : Bool := c.word == 1

def toNat (c : Count) : Nat := c.word.toNat

def text (c : Count) : String := "RefCount(" ++ toString c.toNat ++ ")"

/-! ## As a number -/

@[simp] theorem toNat_zero : zero.toNat = 0 := rfl

theorem toNat_succ (c : Count) : c.succ.toNat = (c.toNat + 1) % UInt64.size :=
  UInt64.toNat_add c.word 1

/-- Taking one away is adding the largest word. -/
theorem toNat_pred (c : Count) : c.pred.toNat = (c.toNat + (UInt64.size - 1)) % UInt64.size := by
  rw [Nat.add_comm]
  exact UInt64.toNat_sub c.word 1

theorem isFull_iff (c : Count) : c.isFull = true ↔ limit.toNat < c.toNat := by
  simp only [isFull, toNat, decide_eq_true_eq, UInt64.lt_iff_toNat_lt]

theorem isZero_iff (c : Count) : c.isZero = true ↔ c.toNat = 0 := by
  rw [isZero, beq_iff_eq, ← UInt64.toNat_inj]
  rfl

theorem isOne_iff (c : Count) : c.isOne = true ↔ c.toNat = 1 := by
  rw [isOne, beq_iff_eq, ← UInt64.toNat_inj]
  rfl

end Count

/-! ## Questions about a count -/

/-- What an owner of a reference may ask about a count. -/
inductive Question where
  /-- Whether the count is exactly one. -/
  | unique
  /-- Whether the count is at least one. -/
  | referenced
deriving DecidableEq

def Count.answer (c : Count) : Question → Bool
  | .unique => c.isOne
  | .referenced => !c.isZero

end ObjectBoundary
