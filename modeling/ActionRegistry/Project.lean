import ActionRegistry.Action.Manifest
import ActionRegistry.Source.Catalog
import ActionRegistry.Standard.Sources
import ActionRegistry.Task.Image
import ActionRegistry.Trigger.Run

/-!
# Projects

A project has a catalog of actions, a configuration and images, and the modes of its services. It
renders manifests and runs callbacks; both read the catalog.
-/

namespace ActionRegistry

structure Project where
  catalog : Catalog
  config : TaskConfig
  images : ImageResolver
  modes : Modes

namespace Project

/-- A project with given sources, of which nothing is loaded, and services that are live. -/
def ofSources (sources : List Source) (config : TaskConfig) (images : ImageResolver) : Project :=
  ⟨.ofSources sources, config, images, .live⟩

def inDirectory (fs : Files) (root : Path) : Result Project := do
  let config ← TaskConfig.load fs root
  .ok (ofSources Standard.sources config (Image.inProject fs root))

structure Answer (α : Type) where
  result : Result α
  log : List Log.Event
  project : Project

def registry (p : Project) : Answer Registry :=
  let reading := p.catalog.read
  ⟨reading.result, reading.log, { p with catalog := reading.catalog }⟩

def context (p : Project) (parameters : Parameters) (taskGroupId : String) : BuildContext :=
  ⟨parameters, taskGroupId, p.config, p.images⟩

def render (p : Project) (parameters : Parameters) (taskGroupId : String) : Answer Manifest :=
  let answer := p.registry
  { answer with
    result := do Manifest.ofRegistry (← answer.result) (p.context parameters taskGroupId) }

def trigger (p : Project) (i : Invocation) : Run × Project :=
  let answer := p.registry
  match answer.result with
  | .error e => (.failed e p.modes answer.log, answer.project)
  | .ok r =>
    let run := Run.ofInvocation r i p.modes
    ({ run with log := answer.log ++ run.log }, { answer.project with modes := run.modes })

def reset (p : Project) : Project := { p with catalog := p.catalog.reset, modes := .live }

end Project

end ActionRegistry
