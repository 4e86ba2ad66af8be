import ActionRegistry.CommandLine.ProjectRoot
import ActionRegistry.CommandLine.Request
import ActionRegistry.CommandLine.Table
import ActionRegistry.CommandLine.Work
import ActionRegistry.Project

/-!
# Running commands

Each command works on the files that it finds, and on nothing else but the words of its line, the
environment and an identifier that is new. Only two commands write files: one the manifest, the
other the default configuration.
-/

namespace ActionRegistry.CommandLine

/-- What a run of the program starts from. -/
structure World where
  files : Files
  environment : Environment
  /-- An identifier that no other run has. -/
  freshGroup : String

def Request.rootIn (r : Request) (fs : Files) : Path :=
  r.root.getD (.ofSteps true fs.projectRoot)

def outputLine (s : String) : String := s ++ "\n"

def prettyOutput (v : Json) : String := outputLine v.pretty

def Activity.attempt {α : Type} (a : Activity) (x : Result α) : Except Failure α :=
  x.mapError (.during a)

def openProject (fs : Files) (root : Path) : Except Failure Project :=
  Activity.loadTaskConfig.attempt (Project.inDirectory fs root)

/-! ### The manifest -/

def manifestFor (fs : Files) (root parameters : Path) (taskGroupId : String) :
    Except Failure Manifest × List Log.Event :=
  let inputs : Except Failure (Project × Parameters) := do
    let project ← openProject fs root
    let values ← (Activity.readParameters parameters).attempt (Parameters.load fs parameters)
    .ok (project, values)
  match inputs with
  | .error f => (.error f, [])
  | .ok (project, values) =>
    let answer := project.render values taskGroupId
    (Activity.renderManifest.attempt answer.result, answer.log)

def writeFile (fs : Files) (path : Path) (text : String) (log : List Log.Event) (output : String) :
    Work :=
  match fs.writeWhole path text.toUTF8 with
  | (.ok (), fs) => .print output log fs
  | (.error e, fs) => .failed (.during (.write path) (.file e)) log fs

def render (fs : Files) (root parameters : Path) (taskGroupId : String) (output : Option Path) :
    Work :=
  match manifestFor fs root parameters taskGroupId, output with
  | (.error f, log), _ => .failed f log fs
  | (.ok m, log), none => .print (prettyOutput m.toJson) log fs
  | (.ok m, log), some path => writeFile fs path m.toJson.pretty log ""

/-! ### The list of actions -/

def scopeWord (a : Action) : String := if a.appliesToTasks then "task" else "graph"

def actionTable (r : Registry) : Table 4 where
  headers := ["NAME", "ORDER", "SCOPE", "TITLE"].get
  rows := r.sortedActions.map fun a => [a.name, toString a.order, scopeWord a, a.title].get

def listText (r : Registry) : String :=
  if r.actions.isEmpty then outputLine "No actions registered."
  else
    let names := r.callbackNames
    (actionTable r).render
      ++ if names.isEmpty then ""
        else outputLine "" ++ outputLine ("Callbacks: " ++ String.intercalate ", " names)

def listEntry (a : Action) : Json :=
  .object [("context", .array (a.context.map ManifestEntry.tagsToJson)), ("name", .string a.name),
    ("order", .ofInt a.order.toInt), ("title", .string a.title)]

def listJson (r : Registry) : Json :=
  .object [("actions", .array (r.sortedActions.map listEntry)),
    ("callbacks", .array (r.callbackNames.map .string))]

def list (fs : Files) (root : Path) (asJson : Bool) : Work :=
  match openProject fs root with
  | .error f => .failed f [] fs
  | .ok project =>
    let answer := project.registry
    match Activity.loadActions.attempt answer.result with
    | .error f => .failed f answer.log fs
    | .ok r => .print (if asJson then prettyOutput (listJson r) else listText r) answer.log fs

/-! ### Callbacks -/

def runCallback (fs : Files) (root : Path) (texts : CallbackTexts) : Work :=
  let inputs : Except Failure (Project × Invocation) := do
    let project ← openProject fs root
    let invocation ← texts.invocation.mapError .badTexts
    .ok (project, invocation)
  match inputs with
  | .error f => .failed f [] fs
  | .ok (project, invocation) =>
    let (run, _) := project.trigger invocation
    ⟨(Activity.callback invocation.callback).attempt run.result, "", run.log, fs⟩

/-! ### The configuration -/

def openConfig (fs : Files) (root : Path) : Except Failure TaskConfig :=
  Activity.loadConfig.attempt (TaskConfig.load fs root)

def showConfig (fs : Files) (root : Path) (asJson : Bool) : Work :=
  match openConfig fs root with
  | .error f => .failed f [] fs
  | .ok c => .print (if asJson then prettyOutput c.toJson else c.toText) [] fs

def writeConfig (fs : Files) (root : Path) (overwrite : Bool) : Work :=
  let path := root.configFile
  if fs.has path && !overwrite then .failed (.alreadyExists path) [] fs
  else writeFile fs path TaskConfig.default.toText [] (outputLine ("Wrote " ++ path.text))

def concernLine (c : TaskConfig.Concern) : String :=
  outputLine ("[" ++ c.severity.text ++ "] " ++ c.message)

def concernsText (concerns : List TaskConfig.Concern) : String :=
  if concerns.isEmpty then outputLine "Config is valid. No warnings."
  else String.join (concerns.map concernLine)

/-- Tells the likely mistakes in the configuration, and fails if one is serious. -/
def checkConfig (fs : Files) (root : Path) (asJson : Bool) : Work :=
  match openConfig fs root with
  | .error f => .failed f [] fs
  | .ok c =>
    let concerns := c.concerns
    let output :=
      if asJson then
        prettyOutput (.object [("warnings", .array (concerns.map TaskConfig.Concern.toJson))])
      else concernsText concerns
    let isSerious := concerns.any fun c => c.severity == .error
    ⟨if isSerious then .error .badConfig else .ok (), output, [], fs⟩

/-! ### A run of the program -/

def Request.work (r : Request) (w : World) : Work :=
  let root := r.rootIn w.files
  match r.job with
  | .render parameters taskGroupId output =>
    CommandLine.render w.files root parameters (taskGroupId.getD w.freshGroup) output
  | .list => CommandLine.list w.files root r.asJson
  | .runCallback texts => CommandLine.runCallback w.files root texts
  | .showConfig => CommandLine.showConfig w.files root r.asJson
  | .writeConfig overwrite => CommandLine.writeConfig w.files root overwrite
  | .checkConfig => CommandLine.checkConfig w.files root r.asJson

/-- The least level of events that a job tells. Running a callback tells the most. -/
def Job.leastLevel : Job → Log.Level
  | runCallback _ => .info
  | _ => .warning

/-- The report of a run of the program with the words of its command line. -/
def run (w : World) (words : List String) : Report :=
  match Request.read w.environment words with
  | .error misuse => ⟨misuseCode, "", ["error: " ++ misuse.message], w.files⟩
  | .ok (.help names c) => ⟨0, c.usage names, [], w.files⟩
  | .ok (.version names) =>
    let name := String.intercalate "-" names
    ⟨0, outputLine (name ++ " " ++ Request.programVersion), [], w.files⟩
  | .ok (.command r) => (r.work w).report r.job.leastLevel

end ActionRegistry.CommandLine
