import ActionRegistry.Action.Registration
import ActionRegistry.Yaml.Decode

/-!
# Declarative actions

An action may be declared by a text of two YAML documents: the first describes it, and the second is
its task, the same for every run.
-/

namespace ActionRegistry.Declarative

open Decoding

/-- The first document as a record. Names that are no field are refused. -/
def record : Record Yaml.Value Description where
  title := "struct Frontmatter"
  strict := true
  fields :=
    Description.mk
      <$> .required "name" (Yaml.Value.asText "a string")
      <*> .required "title" (Yaml.Value.asText "a string")
      <*> .required "description" (Yaml.Value.asText "a string")
      <*> .required "order" Yaml.Value.asInt64
      <*> .optional "context" []
        (Yaml.Value.asList (Yaml.Value.asMap (Yaml.Value.asText "a string")))
      <*> .optional "schema" none (Yaml.Value.asOption Yaml.Value.toJson)

def ofDocuments : List Yaml.Value → Except SourceFault (Description × Json)
  | [front, template] => do
    let description ← (front.asRecord record).mapError .frontMatter
    let task ← template.toJson.mapError .template
    .ok (description, task)
  | documents => .error (.documentCount documents.length)

def ofText (text : String) : Except SourceFault (Description × Json) :=
  match Yaml.Value.ofText? text with
  | none => .error .malformed
  | some documents => ofDocuments documents

/-- Adds the action that a text declares to a registry. The origin is what messages call the text.
-/
def register (origin text : String) : InPlace Registry Unit := do
  let (description, task) ← .ofResult ((ofText text).mapError (.malformedSource origin))
  let handle ← .ofResult (TaskHandle.ofDescription description)
  .within (fun r => (r, handle)) (fun _ s => s.1)
    (TaskHandle.register (.builder fun _ => .ok (some (.json task))))

end ActionRegistry.Declarative
