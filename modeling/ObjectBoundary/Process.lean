import ObjectBoundary.Act.Check

/-!
# The process

What concerns a process as a whole: its settings, the start of its shutdown, and checks that
stand by themselves.

* `Act.install`: chooses the settings, which can be done once.
* `Act.signalShutdown`, `Act.shutDown`: the start of shutdown, as an act and as a function
  member, from which nothing unwinds.
* `Act.guarded`: a failed check whose cleanup fails a check as well.
-/

namespace ObjectBoundary.Act

/-! ## Settings -/

/-- Installs settings, unless some are installed or were already consulted. -/
def install (s : Settings) : Act (Except SettingsError Unit) := do
  if (← get).settings.isSome then
    pure (.error .alreadyInstalled)
  else
    modify fun w => { w with settings := some s }
    emit (.installed s)
    pure (.ok ())

theorem install_apply_of_none {w : World} (h : w.settings = none) (s : Settings) (phase : Phase) :
    install s phase w =
      (.done (.ok ()), { w with settings := some s, log := w.log ++ [.installed s] }) := by
  simp only [install, bind_apply, get, h]
  rfl

theorem install_apply_of_some {w : World} {c : Settings} (h : w.settings = some c) (s : Settings)
    (phase : Phase) : install s phase w = (.done (.error .alreadyInstalled), w) := by
  simp only [install, bind_apply, get, h]
  rfl

/-- The settings that the environment asks for. The process does not use them. -/
def environmentSettings : Act (Except SettingsError Settings) := do
  return Settings.ofEnvironment (← get).environment

/-! ## Shutdown -/

/-- Signals the start of shutdown, which may be done once. Without shutdown checks it is not
recorded. -/
def signalShutdown : Act Unit := do
  if (← settings).shutdownChecks then
    let before := (← get).isShutdown
    modify fun w => { w with isShutdown := true }
    require (!before) .shutdownTwice
    emit .shutdownArmed

def shutDown : Act Unit := contained do
  emit .shutdownBegan
  signalShutdown

def hasShutDown : Act Bool := do
  return (← get).isShutdown

/-! ## Checks that stand by themselves -/

/-- Fails a check while a guard is in scope, which fails a second one when it goes out. -/
def guarded {α : Type} (first second : String) (value : α) : Act α :=
  ensuring
    (do
      check (.stated first)
      pure value)
    (do
      check (.stated second)
      emit .guardDone)

/-- Computes a value where nothing may unwind, failing a check before if there is a message. -/
def computed {α : Type} (message : Option String) (value : α) : Act α := contained do
  match message with
  | some text => check (.stated text)
  | none => pure ()
  pure value

end ObjectBoundary.Act
