import ObjectBoundary.Text.Blank

/-!
# Settings

Two switches decide what a broken contract does: whether a failed check ends the operation that
made it, and whether objects are checked against the start of shutdown at all. The settings of a
process are chosen once, explicitly or from the environment.

* `Settings.Draft.build`: settings from those switches that were given.
* `Switch.ofText?`: the spellings of a switch in the environment.
* `Settings.ofEnvironment`: the settings that the environment asks for, or why it asks for none.
-/

namespace ObjectBoundary

/-! ## The two switches -/

structure Settings where
  /-- Whether a failed check ends the operation. It is logged in any case. -/
  fatalChecks : Bool
  /-- Whether objects are checked against the start of shutdown. -/
  shutdownChecks : Bool
deriving DecidableEq

namespace Settings

/-- Settings of which some switches are still open. -/
structure Draft where
  fatalChecks : Option Bool := none
  shutdownChecks : Option Bool := none
deriving DecidableEq

/-- An open switch for fatal checks is on; one for shutdown checks follows the other. -/
def Draft.build (d : Draft) : Settings :=
  let fatalChecks := d.fatalChecks.getD true
  ⟨fatalChecks, d.shutdownChecks.getD fatalChecks⟩

def default : Settings := ({} : Draft).build

/-- How a switch is written. -/
def switchText (b : Bool) : String := if b then "true" else "false"

def debugText (s : Settings) : String :=
  "Config \x7b dchecks: " ++ switchText s.fatalChecks ++ ", shutdown_checks: " ++
    switchText s.shutdownChecks ++ " \x7d"

end Settings

/-! ## Switches in the environment -/

/-- The variables of the environment that hold a switch. -/
inductive Variable where
  | fatalChecks
  | shutdownChecks
deriving DecidableEq

def Variable.name : Variable → String
  | .fatalChecks => "HONEYCOMB_DCHECKS"
  | .shutdownChecks => "HONEYCOMB_SHUTDOWN_CHECKS"

/-- Why settings were not built or not installed. -/
inductive SettingsError where
  | alreadyInstalled
  | invalidValue (source : Variable) (value : String)
deriving DecidableEq

namespace SettingsError

/-- The kind of an error, in one word. -/
def kind : SettingsError → String
  | alreadyInstalled => "AlreadyInstalled"
  | invalidValue _ _ => "InvalidEnv"

def message : SettingsError → String
  | alreadyInstalled => "a configuration has already been installed"
  | invalidValue v value =>
    "invalid value \x60" ++ value ++ "\x60 for environment variable \x60" ++ v.name ++ "\x60"

end SettingsError

namespace Switch

def onWords : List (List Char) := ["1", "true", "on", "yes"].map String.toList

def offWords : List (List Char) := ["0", "false", "off", "no"].map String.toList

/-- Reads a switch: one of eight words in any case of its ASCII letters, with any blanks
around it. -/
def ofChars? (cs : List Char) : Option Bool :=
  let word := (Text.trim cs).map Char.toLower
  if word ∈ onWords then some true
  else if word ∈ offWords then some false
  else none

def ofText? (text : String) : Option Bool := ofChars? text.toList

/-- Reads the switch that a variable holds. An error carries the value unchanged. -/
def read (v : Variable) (value : String) : Except SettingsError Bool :=
  match ofText? value with
  | some b => .ok b
  | none => .error (.invalidValue v value)

end Switch

/-- The values of the variables, as bytes. -/
structure Environment where
  fatalChecks : Option ByteArray := none
  shutdownChecks : Option ByteArray := none

namespace Environment

/-- The value of a variable as text. Bytes that are no text count as no value. -/
def lookup (e : Environment) (v : Variable) : Option String :=
  (match v with
    | .fatalChecks => e.fatalChecks
    | .shutdownChecks => e.shutdownChecks).bind String.fromUTF8?

/-- Reads the switch of a variable, if the variable has a value. -/
def switch (e : Environment) (v : Variable) : Except SettingsError (Option Bool) :=
  match e.lookup v with
  | none => .ok none
  | some value => (Switch.read v value).map some

end Environment

/-- The settings that an environment asks for. The variables are read in order, and the first
that holds no switch is the error. -/
def Settings.ofEnvironment (e : Environment) : Except SettingsError Settings := do
  let fatalChecks ← e.switch .fatalChecks
  let shutdownChecks ← e.switch .shutdownChecks
  return Draft.build ⟨fatalChecks, shutdownChecks⟩

end ObjectBoundary
