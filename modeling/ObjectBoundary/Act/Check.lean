import ObjectBoundary.Act.Basic

/-!
# Settings in force and checks

* `Act.settings`: the settings of the process, which the first look at them fixes.
* `Act.check`: reports a failed check and, if the settings say so, unwinds.
* `Act.requireRunning`: the check that shutdown has not begun, if the settings ask for it.
* `settings_apply_of_some`: settings in force are read without any effect.
-/

namespace ObjectBoundary.Act

/-! ## Settings in force -/

/-- The settings that an environment brings into force, and the reason if it holds none and the
default ones are. -/
def resolve (e : Environment) : Settings × Option SettingsError :=
  match Settings.ofEnvironment e with
  | .ok s => (s, none)
  | .error error => (.default, some error)

/-- The settings of the process. If none are in force, those that the environment brings are
from now on; that it holds none is logged. -/
def settings : Act Settings := do
  let w ← get
  match w.settings with
  | some s => pure s
  | none => do
    let (s, error) := resolve w.environment
    match error with
    | some e => emit (.fellBack e)
    | none => pure ()
    modify fun w => { w with settings := some s }
    pure s

theorem settings_apply_of_some {w : World} {s : Settings} (h : w.settings = some s)
    (phase : Phase) : settings phase w = (.done s, w) := by
  simp only [settings, bind_apply, get, h]
  rfl

/-! ## Checks -/

/-- Reports a failed check. Where failed checks are not fatal the act goes on. -/
def check (failure : Failure) : Act Unit := do
  emit (.failed failure)
  if (← settings).fatalChecks then unwind failure

/-- Checks a condition. -/
def require (condition : Bool) (failure : Failure) : Act Unit :=
  if condition then pure () else check failure

/-- Checks that shutdown has not begun, if the settings ask for it. -/
def requireRunning : Act Unit := do
  if (← settings).shutdownChecks then
    require (!(← get).isShutdown) .heldAtShutdown

end ObjectBoundary.Act
