import ActionRegistry.CommandLine.CallbackTexts
import ActionRegistry.Error
import ActionRegistry.Log

/-!
# Work

What running a command amounts to: a text for the output, the events on the way, the files after it,
and whether it failed. The report of it has the exit code and the messages in place of the events.
-/

namespace ActionRegistry.CommandLine

/-- What was going on when an error came up. -/
inductive Activity where
  | loadTaskConfig
  | loadConfig
  | loadActions
  | readParameters (path : Path)
  | renderManifest
  | write (path : Path)
  | callback (name : String)

def Activity.failed : Activity → String
  | loadTaskConfig => "failed to load callback task config"
  | loadConfig => "failed to load config"
  | loadActions => "failed to load actions"
  | readParameters path => "failed to read parameters from " ++ path.text
  | renderManifest => "failed to render actions.json"
  | write path => "failed to write " ++ path.text
  | callback name => "action callback " ++ name ++ " failed"

inductive Failure where
  | during (activity : Activity) (error : Error)
  | badTexts (fault : CallbackTexts.Fault)
  /-- There is a file that is not to be overwritten. -/
  | alreadyExists (path : Path)
  | badConfig

def Failure.message : Failure → String
  | during activity e =>
    activity.failed ++ ": " ++ e.message ++ e.source?.elim "" (": " ++ ·)
  | badTexts fault => fault.message
  | alreadyExists path => path.text ++ " already exists (use --force to overwrite)"
  | badConfig => "config validation found errors"

structure Work where
  result : Except Failure Unit
  output : String
  log : List Log.Event
  files : Files

def Work.failed (f : Failure) (log : List Log.Event) (files : Files) : Work :=
  ⟨.error f, "", log, files⟩

def Work.print (output : String) (log : List Log.Event) (files : Files) : Work :=
  ⟨.ok (), output, log, files⟩

structure Report where
  code : UInt32
  output : String
  /-- What is written to the standard error, by lines. -/
  messages : List String
  files : Files

def failureCode : UInt32 := 1

def misuseCode : UInt32 := 2

/-- The report of work, of which events below a level are not told. -/
def Work.report (w : Work) (least : Log.Level) : Report :=
  let events := (w.log.filter fun e => least.rank ≤ e.level.rank).map Log.Event.line
  match w.result with
  | .ok () => ⟨0, w.output, events, w.files⟩
  | .error f => ⟨failureCode, w.output, events ++ ["error: " ++ f.message], w.files⟩

end ActionRegistry.CommandLine
