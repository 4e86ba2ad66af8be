import ActionRegistry.Action.Registry
import ActionRegistry.Json.Decode

/-!
# The manifest

The manifest lists the actions that are available for a run, in the order in which they are offered,
each with its task. It is written as JSON and can be read again.
-/

namespace ActionRegistry

structure ManifestEntry where
  name : String
  title : String
  description : String
  context : List TagSet
  schema : Option Json
  task : Json

/-- The actions that are available for a run. -/
structure Manifest where
  version : UInt32
  parameters : Parameters
  entries : List ManifestEntry

namespace ManifestEntry

def ofAction (a : Action) (task : Json) : ManifestEntry where
  name := a.name
  title := a.title
  description := a.description
  context := a.context
  schema := a.schema
  task := task

def tagsToJson (tags : TagSet) : Json :=
  .object (tags.entries.map fun e => (e.1, .string e.2))

/-- The entry as a JSON value, with its fields in the order of the format. An entry without a schema
has no field for it. -/
def toJson (e : ManifestEntry) : Json :=
  .object <|
    [("kind", .string "task"), ("name", .string e.name), ("title", .string e.title),
      ("description", .string e.description), ("context", .array (e.context.map tagsToJson))]
    ++ (e.schema.map fun v => ("schema", v)).toList ++ [("task", e.task)]

open Decoding

/-- The one kind of actions, which is the name alone or the name with an empty value. -/
def decodeKind : Json → Decoded Unit
  | .string name => variant name
  | .object [(name, v)] => do
    variant name
    match v with
    | .null => .ok ()
    | v => wrongType v.found "unit"
  | .object _ => wrongValue .map "map with a single key"
  | v => wrongType v.found "string or map"
where
  variant (name : String) : Decoded Unit :=
    if name = "task" then .ok () else .error (.here (.unknownVariant name ["task"]))

def record : Record Json ManifestEntry where
  title := "struct ManifestAction"
  strict := false
  fields :=
    (fun _ => ManifestEntry.mk)
      <$> .required "kind" decodeKind
      <*> .required "name" Json.asText
      <*> .required "title" Json.asText
      <*> .required "description" Json.asText
      <*> .required "context" (Json.asList (Json.asMap Json.asText))
      <*> .optional "schema" none (Json.asOption .ok)
      <*> .required "task" .ok

end ManifestEntry

namespace Manifest

def currentVersion : UInt32 := 1

/-- The entries of some actions, of which those without a task are left out. The first error in
their order is told. -/
def entriesOf (ctx : BuildContext) : List Action → Result (List ManifestEntry)
  | [] => .ok []
  | a :: rest => do
    match ← a.task ctx with
    | none => entriesOf ctx rest
    | some task => (ManifestEntry.ofAction a task :: ·) <$> entriesOf ctx rest

def ofRegistry (r : Registry) (ctx : BuildContext) : Result Manifest := do
  let entries ← entriesOf ctx r.sortedActions
  .ok ⟨currentVersion, ctx.parameters, entries⟩

def toJson (m : Manifest) : Json :=
  .object [
    ("version", .ofInt m.version.toNat),
    ("variables", .object [("parameters", m.parameters.toJson)]),
    ("actions", .array (m.entries.map ManifestEntry.toJson))]

open Decoding

/-- What an expression in a task may refer to, as a record. -/
def scope : Record Json Parameters where
  title := "struct Variables"
  strict := false
  fields := .required "parameters" Parameters.ofJson

def record : Record Json Manifest where
  title := "struct Manifest"
  strict := false
  fields :=
    Manifest.mk
      <$> .required "version" Json.asUInt32
      <*> .required "variables" (Json.asRecord scope)
      <*> .required "actions" (Json.asList (Json.asRecord ManifestEntry.record))

def ofJson (v : Json) : Decoded Manifest := v.asRecord record

end Manifest

end ActionRegistry
