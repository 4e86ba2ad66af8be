import ActionRegistry.Json.Printer
import ActionRegistry.Json.Reader
import ActionRegistry.Text
import ActionRegistry.Trigger.Invocation

/-!
# Invocations in an environment

The task of an action hands its invocation over in texts, of which all but the group and the
callback are written in JSON. A text that is blank or null stands for nothing.
-/

namespace ActionRegistry

structure CallbackTexts where
  taskGroupId : String
  callback : String
  taskId : Option String
  task : Option String
  input : Option String
  parameters : String
  /-- Whether nothing is to be submitted. -/
  isTest : Bool
  deriving DecidableEq, Repr

namespace CallbackTexts

inductive Fault where
  | notJson (name : String)
  | taskIdNotText (got : Json)
  | parametersNotObject (got : Json)

def Fault.message : Fault → String
  | notJson name => name ++ " is not valid JSON"
  | taskIdNotText got => "ACTION_TASK_ID must be a string or null, got " ++ got.compact
  | parametersNotObject got => "ACTION_PARAMETERS must be an object, got " ++ got.compact

/-- The value of a text, if it stands for one. The name is the one of its variable. -/
def value (name : String) (text : Option String) : Except Fault (Option Json) :=
  match text.map Text.trim with
  | none => .ok none
  | some "" => .ok none
  | some trimmed =>
    match Json.read? trimmed with
    | none => .error (.notJson name)
    | some .null => .ok none
    | some v => .ok (some v)

def taskIdOf : Option Json → Except Fault (Option String)
  | none => .ok none
  | some (.string id) => .ok (some id)
  | some v => .error (.taskIdNotText v)

/-- The parameters, of which there are none if nothing stands for them. -/
def parametersOf : Option Json → Except Fault (SortedMap Json)
  | none => .ok .empty
  | some (.object fields) => .ok (.ofList fields)
  | some v => .error (.parametersNotObject v)

def invocation (t : CallbackTexts) : Except Fault Invocation := do
  let taskId ← taskIdOf (← value "ACTION_TASK_ID" t.taskId)
  let parameters ← parametersOf (← value "ACTION_PARAMETERS" (some t.parameters))
  let task ← value "ACTION_TASK" t.task
  let input ← value "ACTION_INPUT" t.input
  .ok {
    taskGroupId := t.taskGroupId
    taskId, task, input
    callback := t.callback
    parameters
    isTest := t.isTest }

end CallbackTexts

end ActionRegistry
