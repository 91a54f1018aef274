import ObjectBoundary.Act.References

/-!
# Counters and checkers

Two devices that stand by themselves: a bare reference count, and a flag that shutdown has begun,
which is checked whatever the settings say about shutdown.
-/

namespace ObjectBoundary.Act

/-! ## Counters -/

def counter (x : Id) : Act Count := do
  match ← entity x with
  | .counter c => pure c
  | _ => refuse .wrongKind

/-- Adds to a counter. -/
def countUp (x : Id) : Act Unit := do
  discard (counter x)
  raise x

/-- Takes from a counter and tells whether it was at one. -/
def countDown (x : Id) : Act Bool := do
  discard (counter x)
  lower x

def countAsk (q : Question) (x : Id) : Act Bool := do
  return (← counter x).answer q

/-! ## Checkers -/

def checker (x : Id) : Act Bool := do
  match ← entity x with
  | .checker b => pure b
  | _ => refuse .wrongKind

/-- Records the start of shutdown, which may be done once. -/
def checkerSignal (x : Id) : Act Unit := do
  let before ← checker x
  put x (.checker true)
  require (!before) .shutdownTwice

def checkerRequire (x : Id) : Act Unit := do
  require (!(← checker x)) .heldAtShutdown

end ObjectBoundary.Act
