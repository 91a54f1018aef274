import ObjectBoundary.Class

/-!
# Broken contracts

Both sides of the boundary keep contracts that no type enforces. What can be found out at run
time is checked, and every way to break a contract has a text that reports it.

* `Failure`: a contract that was not kept.
* `Failure.message`: the text that reports it.
-/

namespace ObjectBoundary

/-- A contract that was not kept. -/
inductive Failure where
  /-- An object was made, used or destroyed after shutdown began. -/
  | heldAtShutdown
  /-- Shutdown began twice. -/
  | shutdownTwice
  /-- A count of zero was released. -/
  | countUnderflow
  /-- A base member was called without a structure. -/
  | nullBase
  /-- A member of an interface was called without a structure. -/
  | nullReceiver
  /-- The wrapper of a structure is of another class than the one asked for. -/
  | otherClass (found expected : Tag)
  /-- A class does not recognise the tag of what it was given. -/
  | unexpectedClass (found : Tag)
  /-- An object of this side was given where a proxy was asked for. -/
  | notProxy (expected : Tag)
  /-- The object of a borrowing wrapper was to be taken over. -/
  | notOwning
  /-- The structure of a proxy was to be taken over, but it was taken before. -/
  | emptyProxy
  /-- The structure of a proxy was to be taken over, but it has no `del` member. -/
  | undeletable
  /-- A bare condition did not hold. -/
  | condition
  /-- Two numbers were not equal. -/
  | unequal (left right : Int32)
  /-- A check with a text of its own. -/
  | stated (message : String)
deriving DecidableEq

namespace Failure

private def comparison (left right found expected : String) : String :=
  "check failed: " ++ left ++ " == " ++ right ++ " (" ++ found ++ " vs. " ++ expected ++ ")"

def message : Failure → String
  | heldAtShutdown => "object reference incorrectly held at shutdown"
  | shutdownTwice => "shutdown was already signalled"
  | countUnderflow => "reference count underflow"
  | nullBase => "check failed: !base.is_null()"
  | nullReceiver => "check failed: !this.is_null()"
  | otherClass found expected =>
    comparison "ty" "C::WRAPPER_TYPE" found.debugText expected.debugText
  | unexpectedClass found => "unexpected class type " ++ found.text
  | notProxy expected => "object is not a proxy of class " ++ expected.text
  | notOwning => "structure does not own its object"
  | emptyProxy => "proxy no longer owns its structure"
  | undeletable => "structure is not owned by the proxy"
  | condition => "check failed: cond"
  | unequal left right => comparison "left" "right" (toString left.toInt) (toString right.toInt)
  | stated message => message

end Failure

end ObjectBoundary
