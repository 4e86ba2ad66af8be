import ActionRegistry.Action.Declarative

/-!
# Registration step by step

A script is a list of registration steps that share named handles. A step on a handle that is not
there, or is of the other sort, changes nothing. What a step wrote before it failed stays written.
-/

namespace ActionRegistry

inductive Handle where
  | task (handle : TaskHandle)
  | callback (handle : CallbackHandle)

/-- A registry and the handles that go with it. -/
structure Bench where
  registry : Registry
  handles : List (String × Handle)

namespace Bench

def empty : Bench := ⟨.empty, []⟩

def handle? (b : Bench) (name : String) : Option Handle := b.handles.lookup name

/-- Handles with one of them set. A name that is new goes to the end. -/
def setHandle (name : String) (handle : Handle) : List (String × Handle) → List (String × Handle)
  | [] => [(name, handle)]
  | (n, h) :: rest =>
    if name = n then (name, handle) :: rest else (n, h) :: setHandle name handle rest

def withHandle (b : Bench) (name : String) (handle : Handle) : Bench :=
  { b with handles := setHandle name handle b.handles }

end Bench

inductive Step where
  | describeTask (handle : String) (description : Description)
  | describeCallback (handle : String) (description : Description) (symbol : String)
      (isAvailable : Parameters → Bool)
  | configure (handle : String) (setting : CallbackHandle.Setting)
  | applyTask (handle : String) (build : Builder)
  /-- The file is the one that registers the action. -/
  | applyCallback (handle : String) (function : Function) (file : String)
  | declare (origin text : String)

namespace Step

/-- Applies a handle of the bench to its registry. -/
def applyHandle {α : Type} (name : String) (wrap : α → Handle) (handle : α)
    (register : InPlace (Registry × α) Unit) : InPlace Bench Unit :=
  register.within (fun b => (b.registry, handle)) fun b s =>
    { b with registry := s.1 }.withHandle name (wrap s.2)

def perform : Step → InPlace Bench Unit
  | describeTask name d => do
    let handle ← .ofResult (TaskHandle.ofDescription d)
    modify (·.withHandle name (.task handle))
  | describeCallback name d symbol isAvailable =>
    modify (·.withHandle name (.callback ⟨d, symbol, isAvailable, false⟩))
  | configure name setting => do
    match (← get).handle? name with
    | some (.callback handle) => modify (·.withHandle name (.callback (handle.set setting)))
    | _ => pure ()
  | applyTask name build => do
    match (← get).handle? name with
    | some (.task handle) => applyHandle name .task handle (TaskHandle.register (.builder build))
    | _ => pure ()
  | applyCallback name f file => do
    match (← get).handle? name with
    | some (.callback handle) =>
      applyHandle name .callback handle (CallbackHandle.register f file)
    | _ => pure ()
  | declare origin text =>
    (Declarative.register origin text).within Bench.registry fun b registry => { b with registry }

/-- The bench after a step, unless the step fails. -/
def run (b : Bench) (step : Step) : Result Bench := step.perform.result b

/-- The bench after a step, whether it fails or not. -/
def attempt (b : Bench) (step : Step) : Bench := step.perform.leaves b

/-- A registry after the steps of a script, which stops at the first that fails. -/
def runAll (script : List Step) (r : Registry) : Result Registry := do
  let b ← script.foldlM run ⟨r, []⟩
  .ok b.registry

end Step

end ActionRegistry
