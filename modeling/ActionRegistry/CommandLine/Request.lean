import ActionRegistry.CommandLine.CallbackTexts
import ActionRegistry.CommandLine.Line
import ActionRegistry.Files.Path

/-!
# Requests

The commands of the program with their options, and what each stands for.
-/

namespace ActionRegistry.CommandLine

inductive Job where
  /-- Writes the manifest for the parameters in a file. -/
  | render (parameters : Path) (taskGroupId : Option String) (output : Option Path)
  | list
  | runCallback (texts : CallbackTexts)
  | showConfig
  | writeConfig (overwrite : Bool)
  | checkConfig
  deriving DecidableEq, Repr

/-- What a command line with a command stands for. -/
structure Request where
  root : Option Path
  asJson : Bool
  job : Job
  deriving DecidableEq, Repr

namespace Values

def get? (values : Values) (name : String) : Option String := values.lookup name

def has (values : Values) (name : String) : Bool := (values.get? name).isSome

def need (values : Values) (name : String) : Except Misuse String :=
  match values.get? name with
  | some value => .ok value
  | none => .error (.missing name)

def path? (values : Values) (name : String) : Option Path := (values.get? name).map Path.mk

end Values

namespace Request

def sharedOptions : List Opt := [
  ⟨"root", none, .path, some "ACTIONS_ROOT"⟩,
  ⟨"json", some 'j', .flag, none⟩,
  ⟨"help", some 'h', .help, none⟩,
  ⟨"version", some 'V', .version, none⟩]

def command (name : String) (options : List Opt) (job : Values → Except Misuse Job) :
    Command Request :=
  .leaf name (sharedOptions ++ options) fun values => do
    .ok ⟨values.path? "root", values.has "json", ← job values⟩

def renderJob (values : Values) : Except Misuse Job := do
  let parameters ← values.need "parameters"
  .ok (.render ⟨parameters⟩ (values.get? "task-group-id") (values.path? "output"))

def callbackJob (values : Values) : Except Misuse Job := do
  let taskGroupId ← values.need "task-group-id"
  let callback ← values.need "callback"
  .ok (.runCallback {
    taskGroupId
    callback
    taskId := values.get? "task-id"
    task := values.get? "task"
    input := values.get? "input"
    parameters := (values.get? "parameters").getD "\x7b\x7d"
    isTest := values.has "test" })

def renderOptions : List Opt := [
  ⟨"parameters", some 'p', .path, none⟩,
  ⟨"task-group-id", none, .text, some "TASK_ID"⟩,
  ⟨"output", some 'o', .path, none⟩]

/-- The options of running a callback, which come from the environment of the task of an action. -/
def callbackOptions : List Opt := [
  ⟨"task-group-id", none, .text, some "ACTION_TASK_GROUP_ID"⟩,
  ⟨"callback", none, .text, some "ACTION_CALLBACK"⟩,
  ⟨"task-id", none, .text, some "ACTION_TASK_ID"⟩,
  ⟨"task", none, .text, some "ACTION_TASK"⟩,
  ⟨"input", none, .text, some "ACTION_INPUT"⟩,
  ⟨"parameters", none, .text, some "ACTION_PARAMETERS"⟩,
  ⟨"test", none, .flag, none⟩]

def configCommands : List (Command Request) := [
  command "show" [] fun _ => .ok .showConfig,
  command "init" [⟨"force", none, .flag, none⟩] fun values =>
    .ok (.writeConfig (values.has "force")),
  command "validate" [] fun _ => .ok .checkConfig]

def programName : String := "taskgraph-actions"

def programVersion : String := "0.1.0"

def program : Command Request :=
  .group programName sharedOptions [
    command "render" renderOptions renderJob,
    command "list" [] fun _ => .ok .list,
    command "action-callback" callbackOptions callbackJob,
    .group "config" sharedOptions configCommands]

def read (env : Environment) (words : List String) : Except Misuse (Line Request) :=
  Line.read program env words

end Request

/-- What stands for the value of an option in its usage. -/
def Role.placeholder : Role → String
  | path => " <path>"
  | text => " <text>"
  | _ => ""

def Opt.usage (o : Opt) : String :=
  "  --" ++ o.name ++ o.letter.elim "" (", -" ++ Char.toString ·) ++ o.role.placeholder ++ "\n"

def Command.usage {α : Type} (names : List String) (c : Command α) : String :=
  let members := c.members.map fun m => "  " ++ m.name ++ "\n"
  let options := c.options.map Opt.usage
  "Usage: " ++ String.intercalate " " names ++ " [options]"
    ++ (if members.isEmpty then "\n" else " <command>\n\nCommands:\n" ++ String.join members)
    ++ (if options.isEmpty then "" else "\nOptions:\n" ++ String.join options)

end ActionRegistry.CommandLine
