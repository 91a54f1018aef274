import ObjectBoundary.Store

/-!
# Acts

An *act* is an operation on the world of a process. It ends in one of four ways, and whatever the
way, the changes that it made and the events that it logged up to there remain.

* `Outcome`: done with a value, unwound by a failed check, aborted with the process, or refused
  because it was asked to use what cannot be used.
* `Phase`: whether an act runs on its own or while another one unwinds.
* `Act.contained`: a function member; unwinding does not cross it but ends the process.
* `Act.ensuring`, `Act.onUnwind`: cleaning up after an act, always or only if it unwinds.
* `instLawfulMonad`: acts compose as expected.
-/

namespace ObjectBoundary

/-! ## Worlds -/

/-- The state of a process: its settings, its entities and what was logged. -/
structure World where
  environment : Environment
  /-- The settings, once they were installed or consulted. -/
  settings : Option Settings
  /-- Whether shutdown has begun. -/
  isShutdown : Bool
  store : Store
  log : List Event

/-- A process that has done nothing yet. -/
def World.initial (e : Environment) (s : Option Settings) : World := ⟨e, s, false, .empty, []⟩

/-! ## Outcomes -/

/-- Why an act was refused. -/
inductive Misuse where
  /-- There is no such name or identity. -/
  | unknown
  /-- The name is in use. -/
  | taken
  /-- Something of this kind cannot be used here. -/
  | wrongKind
  /-- An entity was used after it ceased to exist. -/
  | freed
  /-- Something was taken for what it says it is: an object of this side for a proxy, whose tag it
  reports, or a word behind the members of a structure for a function, as the recorded size covers
  it. -/
  | forged
deriving DecidableEq

/-- How an act ends. -/
inductive Outcome (α : Type) where
  | done (value : α)
  | unwound (failure : Failure)
  /-- The process ended, with the failure that began it, if one did. -/
  | aborted (failure : Option Failure)
  | refused (misuse : Misuse)
deriving DecidableEq

/-- Whether an act runs on its own or while another one unwinds. A failure in the latter case is
logged and goes no further. -/
inductive Phase where
  | normal
  | unwinding
deriving DecidableEq

/-- An operation on a world. -/
def Act (α : Type) : Type := Phase → World → Outcome α × World

namespace Act

variable {α β : Type}

/-! ## Composition -/

protected def pure (a : α) : Act α := fun _ w => (.done a, w)

protected def bind (x : Act α) (f : α → Act β) : Act β := fun phase w =>
  match x phase w with
  | (.done a, w') => f a phase w'
  | (.unwound failure, w') => (.unwound failure, w')
  | (.aborted failure, w') => (.aborted failure, w')
  | (.refused misuse, w') => (.refused misuse, w')

instance : Monad Act where
  pure := Act.pure
  bind := Act.bind

theorem pure_apply (a : α) (phase : Phase) (w : World) :
    (pure a : Act α) phase w = (.done a, w) := rfl

theorem bind_apply (x : Act α) (f : α → Act β) (phase : Phase) (w : World) :
    (x >>= f) phase w =
      match x phase w with
      | (.done a, w') => f a phase w'
      | (.unwound failure, w') => (.unwound failure, w')
      | (.aborted failure, w') => (.aborted failure, w')
      | (.refused misuse, w') => (.refused misuse, w') := rfl

instance instLawfulMonad : LawfulMonad Act :=
  have id_map {α : Type} (x : Act α) : id <$> x = x := by
    funext phase w
    show Act.bind x _ phase w = _
    unfold Act.bind
    rcases h : x phase w with ⟨outcome, w'⟩
    cases outcome <;> rfl
  have bind_assoc {α β γ : Type} (x : Act α) (f : α → Act β) (g : β → Act γ) :
      x >>= f >>= g = x >>= fun a => f a >>= g := by
    funext phase w
    simp only [bind_apply]
    rcases h : x phase w with ⟨outcome, w'⟩
    cases outcome <;> rfl
  LawfulMonad.mk' Act id_map (fun _ _ => rfl) bind_assoc

/-! ## Simple acts -/

def get : Act World := fun _ w => (.done w, w)

def modify (f : World → World) : Act Unit := fun _ w => (.done (), f w)

def refuse (m : Misuse) : Act α := fun _ w => (.refused m, w)

/-- Ends the process without a failure. -/
def abort : Act α := fun _ w => (.aborted none, w)

def emit (e : Event) : Act Unit := modify fun w => { w with log := w.log ++ [e] }

/-- Unwinds, unless the act already runs while another one unwinds. -/
def unwind (failure : Failure) : Act Unit := fun phase w =>
  match phase with
  | .normal => (.unwound failure, w)
  | .unwinding => (.done (), w)

/-- The value of an option, where having none is a misuse. -/
def ofOption (m : Misuse) : Option α → Act α
  | some a => pure a
  | none => refuse m

/-! ## Ends of an act -/

/-- Runs a function member: unwinding that reaches its caller ends the process. -/
def contained (x : Act α) : Act α := fun phase w =>
  match x phase w with
  | (.unwound failure, w') => (.aborted (some failure), w')
  | result => result

/-- Cleans up while a failure unwinds. Whatever ends the process meanwhile, it is this failure
that began it. -/
def cleanUp (failure : Failure) (cleanup : Act Unit) : Act α := fun _ w =>
  match cleanup .unwinding w with
  | (.done _, w') => (.unwound failure, w')
  | (.unwound _, w') => (.aborted (some failure), w')
  | (.aborted _, w') => (.aborted (some failure), w')
  | (.refused misuse, w') => (.refused misuse, w')

/-- Runs an act and cleans up if it unwinds. -/
def onUnwind (x : Act α) (cleanup : Act Unit) : Act α := fun phase w =>
  match x phase w with
  | (.unwound failure, w') => cleanUp failure cleanup phase w'
  | result => result

/-- Runs an act and cleans up after it, whether it unwinds or not. -/
def ensuring (x : Act α) (cleanup : Act Unit) : Act α := do
  let a ← onUnwind x cleanup
  cleanup
  pure a

/-- Nothing unwinds out of a function member. -/
theorem contained_ne_unwound (x : Act α) (phase : Phase) (w : World) (failure : Failure) :
    (contained x phase w).1 ≠ .unwound failure := by
  unfold contained
  rcases h : x phase w with ⟨outcome, w'⟩
  cases outcome <;> simp

end Act

end ObjectBoundary
