import ActionRegistry.Action.Registration
import ActionRegistry.Json.Decode

/-!
# The hello action

An action that shows how callbacks work: it says hello, and is available on the project `try` alone.
-/

namespace ActionRegistry.Hello

structure Input where
  greeting : String
  name : String
  deriving DecidableEq, Repr

def Input.default : Input := ⟨"Hello", "world"⟩

/-- The input as a record. Names that are no field are refused. -/
def Input.record : Decoding.Record Json Input where
  title := "struct HelloInput"
  strict := true
  fields :=
    Input.mk
      <$> .optional "greeting" default.greeting Json.asText
      <*> .optional "name" default.name Json.asText

def Input.ofCall (c : Call) : Decoding.Decoded Input :=
  match c.input with
  | none => .ok default
  | some v => v.asRecord record

def event (i : Input) (modes : Modes) : Log.Event where
  level := .info
  message := i.greeting ++ ", " ++ i.name
  values := [("testing", .flag modes.isTesting)]

def run : Callback := fun call modes =>
  match Input.ofCall call with
  | .ok input => ⟨.ok (), modes, [event input modes], []⟩
  | .error f => ⟨.error f.message, modes, [], []⟩

def function : Function := ⟨"actions_core::builtin::hello::hello_world_action", run⟩

def textSchema (default title description : String) : Json :=
  .ofFields [("type", .string "string"), ("default", .string default), ("title", .string title),
    ("description", .string description)]

def schema : Json :=
  .ofFields [
    ("type", .string "object"),
    ("properties", .ofFields [
      ("greeting", textSchema "Hello" "Greeting" "Word to greet with"),
      ("name", textSchema "world" "Name" "Name to greet")]),
    ("additionalProperties", .bool false)]

def description : Description where
  name := "hello"
  title := "Say Hello"
  description :=
    "Simple **proof-of-concept** callback action that says hello.\n\nOnly offered on try pushes."
  order := defaultCallbackOrder
  context := []
  schema := some schema

def isAvailable (p : Parameters) : Bool :=
  match p.project with
  | .ok project => project == "try"
  | .error _ => false

/-- The file that the tasks of the action name as its source. -/
def sourceFile : String := "crates/actions-core/src/builtin/hello.rs"

def register (r : Registry) : Result Registry := do
  let handle : CallbackHandle := ⟨description, "hw", isAvailable, false⟩
  let (r, _) ← (CallbackHandle.register function sourceFile).result (r, handle)
  .ok r

end ActionRegistry.Hello
