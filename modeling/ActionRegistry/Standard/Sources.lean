import ActionRegistry.Source.Basic
import ActionRegistry.Standard.Hello

/-!
# The standard sources

The sources that every project has: the hello action, and an action that runs the decision task of a
push again.
-/

namespace ActionRegistry.Standard

def retriggerDecisionLines : List String := [
  "---",
  "name: retrigger-decision",
  "title: Retrigger Decision Task",
  "description: |",
  "  Create a clone of the decision task with fresh task and task-group ids.",
  "  Use this when the decision task for a push needs to run again.",
  "order: 100",
  "context:",
  "  - kind: decision-task",
  "---",
  "$merge:",
  "  - $eval: task",
  "  - created: \x7b$fromNow: ''\x7d",
  "    deadline: \x7b$fromNow: '1 day'\x7d",
  "    expires: \x7b$fromNow: '1 year'\x7d",
  "    taskGroupId: \x7b$eval: ownTaskId\x7d",
  "    routes: []",
  "    tags:",
  "      kind: decision-task",
  "      retriggered: 'true'"]

/-- The text that declares the action which runs a decision task again. -/
def retriggerDecision : String :=
  String.join (retriggerDecisionLines.map (· ++ "\n"))

def sources : List Source := [
  .plugin "hello" Hello.register,
  .declarative "retrigger_decision.yml" retriggerDecision]

end ActionRegistry.Standard
