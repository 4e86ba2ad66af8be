import ActionRegistry.Json.Decode

/-!
# Invocations

What the task of an action hands over to run a callback.
-/

namespace ActionRegistry

structure Invocation where
  taskGroupId : String
  /-- The task that the action was triggered on, if it was one. -/
  taskId : Option String
  task : Option Json
  input : Option Json
  callback : String
  /-- The parameters of the run, which need not be complete. -/
  parameters : SortedMap Json
  isTest : Bool

namespace Invocation

def orNull {α : Type} (encode : α → Json) : Option α → Json
  | none => .null
  | some a => encode a

def toJson (i : Invocation) : Json :=
  .object [
    ("task_group_id", .string i.taskGroupId),
    ("task_id", orNull .string i.taskId),
    ("task", orNull id i.task),
    ("input", orNull id i.input),
    ("callback", .string i.callback),
    ("parameters", .ofMap i.parameters),
    ("test", .bool i.isTest)]

open Decoding

def record : Record Json Invocation where
  title := "struct CallbackInvocation"
  strict := false
  fields :=
    Invocation.mk
      <$> .required "task_group_id" Json.asText
      <*> .optional "task_id" none (Json.asOption Json.asText)
      <*> .optional "task" none (Json.asOption .ok)
      <*> .optional "input" none (Json.asOption .ok)
      <*> .required "callback" Json.asText
      <*> .required "parameters" (Json.asMap .ok)
      <*> .optional "test" false Json.asBool

def ofJson (v : Json) : Decoded Invocation := v.asRecord record

end Invocation

end ActionRegistry
