import ActionRegistry.Task.Image
import ActionRegistry.Parameters
import ActionRegistry.Task.Repository
import ActionRegistry.Task.Config

/-!
# The tasks of callbacks

An action that runs a callback creates a task which enters the command line again. The environment
of the task names the callback and hands over the trigger. A value with a key that starts with a
dollar sign is an expression for whoever creates the task; it is filled in when the action is
triggered.
-/

namespace ActionRegistry

structure BuildContext where
  parameters : Parameters
  /-- The group that created tasks join. -/
  taskGroupId : String
  config : TaskConfig
  images : ImageResolver

namespace CallbackTask

/-- What is fixed of a task when its action is registered. -/
structure Spec where
  name : String
  title : String
  symbol : String
  description : String
  callback : String
  /-- The file that registered the action. -/
  sourcePath : String
  deriving DecidableEq, Repr

def checkouts : String := "/builds/worker/checkouts"

def artifacts : String := "/builds/worker/artifacts"

/-- The values that a task takes from the parameters and the image. -/
structure Inputs where
  headRepository : String
  scope : String
  headRev : String
  level : String
  project : String
  pushlogId : String
  image : String
  owner : String
  headRef : String
  deriving DecidableEq, Repr

/-- The inputs of a task; the first that is missing, in this order, is told. -/
def inputs (ctx : BuildContext) : Result Inputs := do
  let p := ctx.parameters
  let headRepository ← p.headRepository
  let scope ← Repository.scope headRepository
  let headRev ← p.headRev
  let level ← p.level
  let project ← p.project
  let pushlogId ← p.pushlogId
  let image ← ctx.images ctx.config.image
  let owner ← p.owner
  let headRef ← p.headRef
  .ok ⟨headRepository, scope, headRev, level, project, pushlogId, image, owner, headRef⟩

def obj (fields : List (String × Json)) : Json := .ofFields fields

/-- The time a while after the creation of the task. -/
def fromNow (offset : String) : Json := obj [("$fromNow", .string offset)]

def eval (expression : String) : Json := obj [("$eval", .string expression)]

/-- The JSON text of the value of an expression. -/
def jsonOf (expression : String) : Json := obj [("$json", eval expression)]

def metadata (spec : Spec) (config : TaskConfig) (i : Inputs) : Json :=
  obj [
    ("owner", .string config.owner),
    ("source", .string (i.headRepository ++ "/raw-file/" ++ i.headRev ++ "/" ++ spec.sourcePath)),
    ("name", .string ("Action: " ++ spec.title)),
    ("description",
      .string ("Task executing callback for action.\n\n---\n" ++ spec.description))]

def routes (config : TaskConfig) (i : Inputs) : Json :=
  let push := i.project ++ "." ++ i.headRev ++ "." ++ i.pushlogId
  .array [
    .string ("tc-treeherder.v2." ++ push),
    .string ("tc-treeherder-stage.v2." ++ push),
    .string ("index." ++ config.trustDomain ++ ".v2." ++ i.project ++ ".pushlog-id." ++ i.pushlogId
      ++ ".actions.$\x7bownTaskId\x7d")]

def environment (spec : Spec) (ctx : BuildContext) (i : Inputs) : Json :=
  obj [
    ("GECKO_BASE_REPOSITORY", .string ctx.config.baseRepository),
    ("GECKO_HEAD_REPOSITORY", .string i.headRepository),
    ("GECKO_HEAD_REF", .string i.headRef),
    ("GECKO_HEAD_REV", .string i.headRev),
    ("HG_STORE_PATH", .string (checkouts ++ "/hg-store")),
    ("ACTION_TASK_GROUP_ID", .string ctx.taskGroupId),
    ("ACTION_TASK_ID", jsonOf "taskId"),
    ("ACTION_TASK", jsonOf "task"),
    ("ACTION_INPUT", jsonOf "input"),
    ("ACTION_CALLBACK", .string spec.callback),
    ("ACTION_PARAMETERS", jsonOf "parameters"),
    ("TASKCLUSTER_CACHES", .string checkouts)]

def command (config : TaskConfig) : Json :=
  let script := "cd " ++ checkouts ++ "/gecko &&\nln -s " ++ artifacts ++ " artifacts &&\n"
    ++ config.callbackCommand
  .array [
    .string "/builds/worker/bin/run-task",
    .string ("--vcs-checkout=" ++ checkouts ++ "/gecko"),
    .string "--sparse-profile=build/sparse-profiles/taskgraph",
    .string "--",
    .string "bash",
    .string "-cx",
    .string script]

def payload (spec : Spec) (ctx : BuildContext) (i : Inputs) : Json :=
  obj [
    ("env", environment spec ctx i),
    ("artifacts", obj [
      ("public", obj [
        ("type", .string "directory"),
        ("path", .string artifacts),
        ("expires", fromNow ctx.config.expires)])]),
    ("cache", obj [("level-" ++ i.level ++ "-checkouts-sparse-v1", .string checkouts)]),
    ("features", obj [("taskclusterProxy", .bool true), ("chainOfTrust", .bool true)]),
    ("image", .string i.image),
    ("maxRunTime", .ofInt ctx.config.maxRunTime.toNat),
    ("command", command ctx.config)]

def extra (spec : Spec) (ctx : BuildContext) : Json :=
  obj [
    ("treeherder", obj [
      ("groupName", .string "action-callback"),
      ("groupSymbol", .string "AC"),
      ("symbol", .string spec.symbol)]),
    ("parent", .string ctx.taskGroupId),
    ("action", obj [
      ("name", .string spec.name),
      ("context", obj [
        ("taskGroupId", .string ctx.taskGroupId),
        ("taskId", eval "taskId"),
        ("input", eval "input"),
        ("parameters", eval "parameters")])])]

def ofInputs (spec : Spec) (ctx : BuildContext) (i : Inputs) : Json :=
  let config := ctx.config
  obj [
    ("created", fromNow ""),
    ("deadline", fromNow config.deadline),
    ("expires", fromNow config.expires),
    ("metadata", metadata spec config i),
    ("workerType", .string (config.trustDomain ++ "-" ++ i.level ++ "-decision")),
    ("provisionerId", .string config.provisionerId),
    ("taskGroupId", .string ctx.taskGroupId),
    ("schedulerId", .string (config.trustDomain ++ "-level-" ++ i.level)),
    ("scopes", .array [.string i.scope]),
    ("tags", obj [("createdForUser", .string i.owner), ("kind", .string "action-callback")]),
    ("routes", routes config i),
    ("payload", payload spec ctx i),
    ("extra", extra spec ctx)]

def ofSpec (spec : Spec) (ctx : BuildContext) : Result Json :=
  ofInputs spec ctx <$> inputs ctx

end CallbackTask

end ActionRegistry
