import ObjectBoundary.Failure
import ObjectBoundary.Settings

/-!
# Events

What acts log, in the order in which it happens. Most events are shown as a line; the changes of
the counts of this side are not, but with them the log tells every count at every moment.

* `Event`: what is logged.
* `Event.line?`: the line that shows an event, if one does.
-/

namespace ObjectBoundary

/-- The identity of an object, wrapper, proxy or structure of the far side: its place in the
order of creation. -/
abbrev Id := Nat

/-- How an object or a structure crossed the boundary. -/
inductive Crossing where
  /-- A shared object was wrapped. -/
  | wrapped
  /-- A shared object was retrieved from its structure. -/
  | unwrapped
  /-- An owned object was wrapped and given away. -/
  | gaveAway
  /-- An owned object was wrapped and lent. -/
  | lent
  /-- An owned object was taken back from its structure. -/
  | tookBack
  /-- A structure of the far side got a proxy. -/
  | received
  /-- A structure of the far side was retrieved from its proxy. -/
  | returned
deriving DecidableEq

def Crossing.text : Crossing → String
  | wrapped => "wrapped local object"
  | unwrapped => "unwrapped local object"
  | gaveAway => "wrapped owned local object"
  | lent => "wrapped borrowed local object"
  | tookBack => "unwrapped owned local object"
  | received => "wrapped foreign structure"
  | returned => "unwrapped foreign structure"

/-- What an operation logs. -/
inductive Event where
  | failed (failure : Failure)
  | crossed (crossing : Crossing) (tag : Tag)
  | installed (settings : Settings)
  /-- The environment holds no settings, and the default ones are used. -/
  | fellBack (error : SettingsError)
  | shutdownBegan
  | shutdownArmed
  /-- A function of the far side was called on one of its structures. -/
  | called (target : Id) (member : String)
  /-- A local object was destroyed. -/
  | dropped (object : Id)
  /-- The guard of a guarded check went out of scope. -/
  | guardDone
  /-- A count of this side rose by one. -/
  | raised (x : Id)
  /-- A count of this side fell by one. -/
  | lowered (x : Id)
deriving DecidableEq

/-- The line that shows an event, given the names of the entities. -/
def Event.line? (name : Id → String) : Event → Option String
  | failed failure => some ("ERROR " ++ failure.message)
  | crossed crossing tag => some ("TRACE " ++ crossing.text ++ " wrapper_type=" ++ tag.text)
  | installed settings =>
    some ("DEBUG installed wrapper configuration dchecks=" ++
      Settings.switchText settings.fatalChecks ++ " shutdown_checks=" ++
      Settings.switchText settings.shutdownChecks)
  | fellBack error =>
    some ("WARN falling back to the default wrapper configuration err=" ++ error.message)
  | shutdownBegan => some "INFO shutting down"
  | shutdownArmed => some "DEBUG shutdown checks armed"
  | called target member => some ("CALL " ++ name target ++ "." ++ member)
  | dropped object => some ("DROP " ++ name object)
  | guardDone => some "guard done"
  | raised _ | lowered _ => none

end ObjectBoundary
