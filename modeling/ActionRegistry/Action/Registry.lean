import ActionRegistry.Action.Basic
import ActionRegistry.Callback.Basic
import ActionRegistry.InPlace

/-!
# The registry

The registry holds the actions in the order in which they were registered, and the callbacks under
their names. No two actions have one name, and no two callbacks.
-/

namespace ActionRegistry

structure Registry where
  actions : List Action
  callbacks : SortedMap Callback

namespace Registry

def empty : Registry := ⟨[], .empty⟩

def action? (r : Registry) (name : String) : Option Action :=
  r.actions.find? fun a => a.name == name

def callback? (r : Registry) (name : String) : Option Callback := r.callbacks.get? name

def callbackNames (r : Registry) : List String := r.callbacks.keys

/-- A sorted list with an action after those of its order. -/
def insertSorted (a : Action) : List Action → List Action
  | [] => [a]
  | b :: bs => if a.order < b.order then a :: b :: bs else b :: insertSorted a bs

/-- The actions in ascending order, those of one order as they were registered. -/
def sortedActions (r : Registry) : List Action :=
  r.actions.foldl (fun sorted a => insertSorted a sorted) []

def addAction (a : Action) : InPlace Registry Unit := do
  if ((← get).action? a.name).isSome then throw (.duplicateAction a.name)
  modify fun r => { r with actions := r.actions ++ [a] }

def addCallback (name : String) (callback : Callback) : InPlace Registry Unit := do
  if (← get).callbacks.contains name then throw (.duplicateCallback name)
  modify fun r => { r with callbacks := r.callbacks.insert name callback }

def inspect (r : Registry) : String :=
  "Registry \x7b actions: [" ++ String.intercalate ", " (r.actions.map Action.inspect)
    ++ "], callbacks: [" ++ String.intercalate ", " (r.callbackNames.map Text.quoted) ++ "] \x7d"

end Registry

end ActionRegistry
