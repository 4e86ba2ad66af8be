import ActionRegistry.Task.CallbackTask

/-!
# Actions

An action is offered to users with a name, a title and a description, and creates a task when it is
triggered. The task is built anew for every run; an action without a task is not available then, and
neither is one whose task is an empty value.
-/

namespace ActionRegistry

/-- Tags that a task must have. -/
abbrev TagSet := SortedMap String

/-- How an action is offered. -/
structure Description where
  name : String
  title : String
  /-- Markdown. -/
  description : String
  /-- Actions are offered in ascending order. -/
  order : Int64
  /-- The tasks that the action applies to: those with all tags of one of the sets. Without sets it
  applies to the group. -/
  context : List TagSet
  /-- The JSON schema of the input, if the action takes input. -/
  schema : Option Json
  deriving DecidableEq

/-- A task as it comes from a builder. -/
inductive Draft where
  | json (value : Json)
  /-- A map whose keys may be any values. -/
  | keyed (entries : List (Json × Json))

/-- The name of a field with a key, if the key is a text, a number or a truth value. -/
def Json.fieldName? : Json → Option String
  | .string s => some s
  | .number n => some n.text
  | .bool b => some (if b then "true" else "false")
  | _ => none

namespace Draft

def fields? : List (Json × Json) → Option (List (String × Json))
  | [] => some []
  | (key, v) :: entries => do
    let name ← key.fieldName?
    let fields ← fields? entries
    return (name, v) :: fields

/-- The draft as a JSON value, if its keys have names. -/
def toJson? : Draft → Option Json
  | json v => some v
  | keyed entries => (fields? entries).map .ofFields

end Draft

/-- A function that builds a task for a run, or none if the action is not available. -/
abbrev Builder := BuildContext → Result (Option Draft)

/-- Where the task of an action comes from. -/
inductive Recipe where
  | builder (build : Builder)
  /-- The task runs a callback, and is available for some parameters. -/
  | callback (spec : CallbackTask.Spec) (isAvailable : Parameters → Bool)

/-- Something that users can trigger. -/
structure Action extends Description where
  recipe : Recipe

def Json.isEmptyTask : Json → Bool
  | .null => true
  | .bool b => !b
  | .number n => n.isZero
  | .string s => s.isEmpty
  | .array items => items.isEmpty
  | .object fields => fields.isEmpty

namespace Action

/-- The task of an action before it is known not to be empty. -/
def draft (a : Action) (ctx : BuildContext) : Result (Option Json) :=
  match a.recipe with
  | .builder build => do
    match ← build ctx with
    | none => .ok none
    | some draft =>
      match draft.toJson? with
      | some v => .ok (some v)
      | none => .error (.taskNotJson a.name)
  | .callback spec isAvailable =>
    if isAvailable ctx.parameters then some <$> CallbackTask.ofSpec spec ctx else .ok none

def task (a : Action) (ctx : BuildContext) : Result (Option Json) :=
  (Option.filter fun v => !v.isEmptyTask) <$> a.draft ctx

def appliesToTasks (a : Action) : Bool := !a.context.isEmpty

def inspect (a : Action) : String :=
  let tags (t : TagSet) : String :=
    let entries := t.entries.map fun e => Text.quoted e.1 ++ ": " ++ Text.quoted e.2
    "\x7b" ++ String.intercalate ", " entries ++ "\x7d"
  let schema := a.schema.elim "None" fun v => "Some(" ++ v.inspect ++ ")"
  "Action \x7b name: " ++ Text.quoted a.name ++ ", title: " ++ Text.quoted a.title
    ++ ", order: " ++ toString a.order.toInt
    ++ ", context: [" ++ String.intercalate ", " (a.context.map tags) ++ "]"
    ++ ", schema: " ++ schema ++ ", .. \x7d"

end Action

end ActionRegistry
