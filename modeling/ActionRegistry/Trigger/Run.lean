import ActionRegistry.Action.Registry
import ActionRegistry.Trigger.Invocation

/-!
# Running a callback

The callback is looked up by its name, both services are put in testing mode if the invocation is a
test, and then the parameters must be complete. What fails changes the modes only if it fails after
that.
-/

namespace ActionRegistry

structure Run where
  result : Result Unit
  modes : Modes
  log : List Log.Event
  /-- What the callback submitted or recorded. -/
  submitted : List Json

namespace Run

/-- A run that fails before the callback is called. -/
def failed (e : Error) (modes : Modes) (log : List Log.Event) : Run := ⟨.error e, modes, log, []⟩

def testingEvent (i : Invocation) : Log.Event where
  level := .warning
  message := "running action callback in testing mode"
  values := [("callback", .shown i.callback)]

def callEvent (i : Invocation) : Log.Event where
  level := .info
  message := "dispatching action callback"
  values := [("callback", .shown i.callback), ("task_group_id", .shown i.taskGroupId),
    ("task_id", .quoted (i.taskId.getD "-"))]

def callOf (i : Invocation) (parameters : Parameters) : Call where
  parameters := parameters
  input := i.input
  taskGroupId := i.taskGroupId
  taskId := i.taskId
  task := i.task

def ofCall (callback : Callback) (i : Invocation) (parameters : Parameters) (modes : Modes)
    (log : List Log.Event) : Run :=
  let outcome := callback (callOf i parameters) modes
  { result := outcome.result.mapError (.callbackFailed i.callback)
    modes := outcome.modes
    log := log ++ callEvent i :: outcome.log
    submitted := outcome.submitted }

def ofInvocation (r : Registry) (i : Invocation) (modes : Modes) : Run :=
  match r.callback? i.callback with
  | none => failed (.unknownCallback i.callback r.callbackNames) modes []
  | some callback =>
    let modes := if i.isTest then .testing else modes
    let log := if i.isTest then [testingEvent i] else []
    match Parameters.ofMap i.parameters with
    | .error e => failed e modes log
    | .ok parameters => ofCall callback i parameters modes log

end Run

end ActionRegistry
