import ObjectBoundary.Session.Plan
import ObjectBoundary.Process
import ObjectBoundary.Device

/-!
# Devices and the process

The steps that use counters and checkers, and those that concern the process as a whole.

* `DeviceStep`, `ProcessStep`: such steps.
* `DeviceStep.plan`, `ProcessStep.act`: what they do.
-/

namespace ObjectBoundary.Session

open ObjectBoundary

/-! ## Devices -/

/-- What is done with a counter or checker. -/
inductive DeviceStep where
  | countUp
  | countDown
  | countAsk (question : Question)
  | signal
  | isShutdown
  | require
deriving DecidableEq

def DeviceStep.act (x : Id) : DeviceStep → Act Value
  | countUp => silently (Act.countUp x)
  | countDown => asFlag (Act.countDown x)
  | countAsk q => asFlag (Act.countAsk q x)
  | signal => silently (Act.checkerSignal x)
  | isShutdown => asFlag (Act.checker x)
  | require => silently (Act.checkerRequire x)

def DeviceStep.plan (slots : Slots) (source : String) (step : DeviceStep) :
    Except Misuse Plan := do
  let x ← slots.device source
  return .answering (step.act x)

/-! ## The process -/

/-- A step that concerns the process as a whole. -/
inductive ProcessStep where
  /-- The start of shutdown as a function member. -/
  | shutDown
  | signalShutdown
  | requireRunning
  | hasShutDown
  | buildSettings (draft : Settings.Draft)
  | defaultSettings
  | currentSettings
  | environmentSettings
  | install (draft : Settings.Draft)
  | check (condition : Bool) (message : Option String)
  | checkEqual (left right : Int32)
  | fail (message : String)
  | failWhileUnwinding (first second : String)
  | compute (value : Int32) (message : Option String)

namespace ProcessStep

/-- The answer of a guarded check that did not unwind. -/
def notUnwound : String := "not unwound"

def settingsValue : Except SettingsError Settings → Value
  | .ok s => .settings s
  | .error e => .error e

def act : ProcessStep → Act Value
  | shutDown => silently Act.shutDown
  | signalShutdown => silently Act.signalShutdown
  | requireRunning => silently Act.requireRunning
  | hasShutDown => asFlag Act.hasShutDown
  | buildSettings d => pure (.settings d.build)
  | defaultSettings => pure (.settings .default)
  | currentSettings => return .settings (← Act.settings)
  | environmentSettings => return settingsValue (← Act.environmentSettings)
  | install d => do
    match ← Act.install d.build with
    | .ok () => pure (.text "ok")
    | .error e => pure (.error e)
  | check condition message =>
    silently (Act.require condition (message.elim .condition .stated))
  | checkEqual left right => silently (Act.require (left == right) (.unequal left right))
  | fail message => silently (Act.check (.stated message))
  | failWhileUnwinding first second => Act.guarded first second (.text notUnwound)
  | compute value message => Act.computed message (.number value.toInt)

end ProcessStep

end ObjectBoundary.Session
