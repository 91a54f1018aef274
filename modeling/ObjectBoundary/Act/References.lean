import ObjectBoundary.Act.Entities

/-!
# References along a chain

A reference to a wrapper or proxy owns one to each entity below it, so taking, giving up or
questioning a reference goes down the chain. Objects are reached directly; the structure of a
proxy is reached through its function members.

* `Act.raise`, `Act.lower`: the count of one entity.
* `Act.retain`, `Act.release`: takes and gives up a reference, the lower ones first.
* `Act.ask`: what the bottom of the chain says about its references.
-/

namespace ObjectBoundary.Act

/-! ## The count of one entity -/

/-- Takes a reference to one entity. Beyond the limit the process ends. -/
def raise (x : Id) : Act Unit := do
  let e ← entity x
  let c ← ofOption .wrongKind e.count?
  put x (e.withCount c.succ)
  emit (.raised x)
  if c.isFull then abort

/-- Gives up a reference to one entity and tells whether it was the last one. -/
def lower (x : Id) : Act Bool := do
  let e ← entity x
  let c ← ofOption .wrongKind e.count?
  put x (e.withCount c.pred)
  emit (.lowered x)
  require (!c.isZero) .countUnderflow
  pure c.isOne

/-! ## Taking references -/

/-- Takes a reference to the first entity of a chain. -/
def retainAlong : List Id → Act Unit
  | [] => refuse .unknown
  | x :: below => do
    match ← entity x with
    | .sharedObject _ => raise x
    | .sharedWrapper _ => do
      retainAlong below
      raise x
    | .sharedProxy p => do
      through p.target Layout.addRef () (retainAlong below)
      raise x
    | .sharedFar f => do
      emit (.called x "add_ref")
      put x (.sharedFar { f with references := f.references + 1 })
    | _ => refuse .wrongKind

/-- Takes a reference to an entity and to all below it. -/
def retain (x : Id) : Act Unit := do
  retainAlong (← chain x)

/-! ## Giving up references -/

/-- Gives up a reference to the first entity of a chain. What loses its last reference is
destroyed. The answer is that of the function `release`. -/
def releaseAlong : List Id → Act Int32
  | [] => refuse .unknown
  | x :: below => do
    match ← entity x with
    | .sharedObject _ => do
      let last ← lower x
      if last then
        retire x
        emit (.dropped x)
      pure (truth last)
    | .sharedWrapper _ => do
      discard (releaseAlong below)
      let last ← lower x
      if last then
        retire x
        requireRunning
      pure (truth last)
    | .sharedProxy p => do
      discard (through p.target Layout.release 0 (releaseAlong below))
      let last ← lower x
      if last then
        retire x
        requireRunning
      pure (truth last)
    | .sharedFar f => do
      emit (.called x "release")
      let references := f.references - 1
      put x (.sharedFar { f with references, freed := f.freed || references == 0 })
      pure (if references = 0 then f.answers.truthy else 0)
    | _ => refuse .wrongKind

/-- Gives up a reference to an entity and to all below it. -/
def release (x : Id) : Act Int32 := do
  releaseAlong (← chain x)

/-- Gives up the reference of a handle. -/
def drop (x : Id) : Act Unit := discard (release x)

/-! ## Questions about references -/

/-- The position of the function member that answers a question. -/
def questionPosition : Question → Nat
  | .unique => Layout.hasOneRef
  | .referenced => Layout.hasAtLeastOneRef

def questionName : Question → String
  | .unique => "has_one_ref"
  | .referenced => "has_at_least_one_ref"

/-- The answer at the bottom of a chain. Every layer of this side turns it into zero or one. -/
def askAlong (q : Question) : List Id → Act Int32
  | [] => refuse .unknown
  | x :: below => do
    match ← entity x with
    | .sharedObject o => pure (truth (o.count.answer q))
    | .sharedWrapper _ => return truth ((← askAlong q below) != 0)
    | .sharedProxy p =>
      return truth ((← through p.target (questionPosition q) 0 (askAlong q below)) != 0)
    | .sharedFar f => do
      emit (.called x (questionName q))
      pure (f.answer q)
    | _ => refuse .wrongKind

/-- What the bottom of the chain of an entity says about its references. -/
def ask (q : Question) (x : Id) : Act Int32 := do
  askAlong q (← chain x)

end ObjectBoundary.Act
