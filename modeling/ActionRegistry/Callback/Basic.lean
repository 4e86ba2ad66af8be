import ActionRegistry.Callback.Name
import ActionRegistry.Log
import ActionRegistry.Parameters

/-!
# Callbacks

A callback is what runs when an action is triggered. It is given everything that is known of the
trigger, and the modes of the two services through which it creates work. In testing mode a service
records what it would submit. What a callback does is its outcome: whether it failed, the modes
after it, what it told the log and what it submitted.
-/

namespace ActionRegistry

/-- Which services are in testing mode. -/
structure Modes where
  jobCreation : Bool
  orchestrationClient : Bool
  deriving DecidableEq, Repr

namespace Modes

def live : Modes := ⟨false, false⟩

def testing : Modes := ⟨true, true⟩

def isTesting (m : Modes) : Bool := m.jobCreation || m.orchestrationClient

end Modes

structure Call where
  parameters : Parameters
  /-- What the user gave, if the action takes input. -/
  input : Option Json
  taskGroupId : String
  /-- The task that the action was triggered on, if it was one. -/
  taskId : Option String
  task : Option Json

structure Outcome where
  /-- Why the callback failed, if it did. -/
  result : Except String Unit
  modes : Modes
  log : List Log.Event
  /-- What the callback submitted or recorded. -/
  submitted : List Json

/-- What runs when an action is triggered. -/
abbrev Callback := Call → Modes → Outcome

structure Function where
  typeName : String
  run : Callback

end ActionRegistry
