import ActionRegistry.Action.Declarative

/-!
# Sources of actions

Actions come from a list of sources. Each of them adds to the registry of those before it, and the
first that fails ends the loading without a registry.
-/

namespace ActionRegistry

inductive Source where
  | plugin (name : String) (register : Registry → Result Registry)
  | declarative (name text : String)

namespace Source

def name : Source → String
  | plugin name _ => name
  | declarative name _ => name

def addTo (s : Source) (r : Registry) : Result Registry :=
  match s with
  | plugin _ register => register r
  | declarative name text => (Declarative.register name text).result r

def failedEvent (s : Source) (e : Error) : Log.Event where
  level := .error
  message := "failed to load action source"
  values := [("source", .quoted s.name)]
  error := some e

def loadedEvent (r : Registry) : Log.Event where
  level := .info
  message := "action registry loaded"
  values := [("actions", .count r.actions.length), ("callbacks", .count r.callbacks.size)]

/-- A registry with the actions of sources, and the events of loading them. -/
def addAll : List Source → Registry → Result Registry × List Log.Event
  | [], r => (.ok r, [loadedEvent r])
  | s :: rest, r =>
    match s.addTo r with
    | .ok r => addAll rest r
    | .error e => (.error e, [s.failedEvent e])

def load (sources : List Source) : Result Registry × List Log.Event := addAll sources .empty

end Source

end ActionRegistry
