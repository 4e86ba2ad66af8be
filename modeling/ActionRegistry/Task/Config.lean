import ActionRegistry.Error
import ActionRegistry.Files.Write
import ActionRegistry.Json.Decode
import ActionRegistry.Yaml.Decode
import ActionRegistry.Yaml.Writer

/-!
# The configuration of callback tasks

The configuration is a file of the project. Each field has a default, and a project without the file
has them all. A configuration that reads may still be a mistake; `concerns` tells which.
-/

namespace ActionRegistry

structure TaskConfig where
  /-- What the names of workers, schedulers and routes start with. -/
  trustDomain : String
  owner : String
  provisionerId : String
  baseRepository : String
  /-- How long after its creation a task must be done. -/
  deadline : String
  /-- How long a task and its artifacts are kept. -/
  expires : String
  /-- How long a task may run, in seconds. -/
  maxRunTime : UInt32
  /-- The name of the image, still to be resolved. -/
  image : String
  callbackCommand : String
  deriving DecidableEq, Repr

namespace TaskConfig

def default : TaskConfig where
  trustDomain := "gecko"
  owner := "mozilla-taskcluster-maintenance@mozilla.com"
  provisionerId := "aws-provisioner-v1"
  baseRepository := "https://hg.mozilla.org/mozilla-unified"
  deadline := "12 hours"
  expires := "1 year"
  maxRunTime := 1800
  image := "decision"
  callbackCommand := "./mach --log-no-times taskgraph action-callback"

open Decoding

/-- The fields of a configuration, given how texts and numbers decode. -/
def fields {ν : Type} (text : ν → Decoded String) (number : ν → Decoded UInt32) :
    Fields ν TaskConfig :=
  TaskConfig.mk
    <$> .optional "trust_domain" default.trustDomain text
    <*> .optional "owner" default.owner text
    <*> .optional "provisioner_id" default.provisionerId text
    <*> .optional "base_repository" default.baseRepository text
    <*> .optional "deadline" default.deadline text
    <*> .optional "expires" default.expires text
    <*> .optional "max_run_time" default.maxRunTime number
    <*> .optional "image" default.image text
    <*> .optional "callback_command" default.callbackCommand text

def record {ν : Type} (text : ν → Decoded String) (number : ν → Decoded UInt32) :
    Record ν TaskConfig :=
  ⟨"struct CallbackTaskConfig", false, fields text number⟩

def ofJson (v : Json) : Decoded TaskConfig := v.asRecord (record Json.asText Json.asUInt32)

def ofDocument (d : Yaml.Document) : Decoded TaskConfig :=
  d.record fun targets =>
    record (fun n => Yaml.Document.text "a string" (targets.follow n))
      fun n => Yaml.Document.uint32 (targets.follow n)

def ofText (text : String) : Decoded TaskConfig :=
  Yaml.Document.only (Yaml.Document.ofText text) ofDocument

def toFields (c : TaskConfig) : List (String × Yaml.Writer.Field) :=
  [("trust_domain", .text c.trustDomain), ("owner", .text c.owner),
    ("provisioner_id", .text c.provisionerId), ("base_repository", .text c.baseRepository),
    ("deadline", .text c.deadline), ("expires", .text c.expires),
    ("max_run_time", .number c.maxRunTime.toNat), ("image", .text c.image),
    ("callback_command", .text c.callbackCommand)]

def toText (c : TaskConfig) : String := Yaml.Writer.mapping c.toFields

def jsonOfField : Yaml.Writer.Field → Json
  | .text s => .string s
  | .number n => .ofInt n

def toJson (c : TaskConfig) : Json :=
  .object (c.toFields.map fun field => (field.1, jsonOfField field.2))

/-! ### The file -/

def load (fs : Files) (root : Path) : Result TaskConfig := do
  let path := root.configFile
  if !fs.has path then .ok default
  else
    let text ← Result.ofFile (fs.readText path)
    (ofText text).mapError .yaml

def save (c : TaskConfig) (fs : Files) (root : Path) : Files.Outcome :=
  fs.writeWhole root.configFile c.toText.toUTF8

/-! ### Mistakes -/

inductive Severity where
  | warning
  | error
  deriving DecidableEq, Repr

def Severity.text : Severity → String
  | warning => "warning"
  | error => "error"

inductive Concern where
  | blankField (name : String)
  | oddOwner (owner : String)
  | insecureRepository (url : String)
  | noRunTime
  | longRunTime (seconds : UInt32)
  | oddCommand
  deriving DecidableEq, Repr

namespace Concern

def severity : Concern → Severity
  | blankField _ => .error
  | noRunTime => .error
  | _ => .warning

def message : Concern → String
  | blankField name => name ++ " must not be empty"
  | oddOwner owner => "owner " ++ apostrophed owner ++ " does not look like an email address"
  | insecureRepository url => "base_repository " ++ apostrophed url ++ " is not an https URL"
  | noRunTime => "max_run_time must be greater than zero"
  | longRunTime seconds =>
    "max_run_time=" ++ toString seconds
      ++ " (more than a day is unusual for a callback task)"
  | oddCommand => "callback_command does not invoke the action-callback entry point"

def toJson (c : Concern) : Json :=
  .object [("level", .string c.severity.text), ("message", .string c.message)]

end Concern

def secondsPerDay : UInt32 := 86400

def holds (piece : List Char) : List Char → Bool
  | [] => piece.isEmpty
  | c :: cs => piece.isPrefixOf (c :: cs) || holds piece cs

def concerns (c : TaskConfig) : List Concern :=
  let needed := [("trust_domain", c.trustDomain), ("owner", c.owner),
    ("provisioner_id", c.provisionerId), ("image", c.image),
    ("callback_command", c.callbackCommand)]
  let blank := (needed.filter fun field => field.2.toList.all Text.isBlank).map fun field =>
    Concern.blankField field.1
  let when (b : Bool) (concern : Concern) : List Concern := if b then [concern] else []
  blank ++ when (!c.owner.toList.contains '@') (.oddOwner c.owner)
    ++ when (!"https://".toList.isPrefixOf c.baseRepository.toList)
        (.insecureRepository c.baseRepository)
    ++ when (c.maxRunTime == 0) .noRunTime
    ++ when (secondsPerDay < c.maxRunTime) (.longRunTime c.maxRunTime)
    ++ when (!holds "action-callback".toList c.callbackCommand.toList) .oddCommand

end TaskConfig

end ActionRegistry
