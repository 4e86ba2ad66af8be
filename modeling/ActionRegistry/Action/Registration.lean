import ActionRegistry.Action.Registry
import ActionRegistry.Task.SourcePath

/-!
# Registration

An action is described first, which gives a handle, and then the handle is applied to what makes the
action work. A handle can be applied once. Applying it changes the registry and the handle in place,
check by check and write by write.
-/

namespace ActionRegistry

def defaultCallbackOrder : Int64 := 10000

def longestSymbol : Nat := 25

namespace Description

def trimmed (field : ActionField) (s : String) : Result String :=
  let t := Text.trim s
  if t.isEmpty then .error (.invalidField field .blank) else .ok t

/-- A schema, unless it is neither an object nor a truth value. -/
def checkSchema : Option Json → Result Unit
  | none => .ok ()
  | some (.object _) => .ok ()
  | some (.bool _) => .ok ()
  | some v => .error (.invalidField .schema (.notSchema v))

/-- A description with its texts trimmed, unless something is wrong with it. -/
def checked (d : Description) : Result Description := do
  checkSchema d.schema
  let name ← trimmed .name d.name
  let title ← trimmed .title d.title
  let description ← trimmed .description d.description
  .ok { d with name, title, description }

end Description

/-- A handle for an action whose task comes from a builder. -/
structure TaskHandle where
  /-- The description, which was checked. -/
  description : Description
  isApplied : Bool

namespace TaskHandle

def ofDescription (d : Description) : Result TaskHandle := do
  .ok ⟨← d.checked, false⟩

/-- Adds the action of a handle to a registry, and marks the handle as applied. -/
def register (recipe : Recipe) : InPlace (Registry × TaskHandle) Unit := do
  let (_, h) ← get
  if h.isApplied then throw (.alreadyRegistered h.description.name)
  .within Prod.fst (fun s r => (r, s.2)) (Registry.addAction { h.description with recipe })
  modify fun (r, h) => (r, { h with isApplied := true })

end TaskHandle

/-- A handle for an action that runs a callback. -/
structure CallbackHandle where
  /-- The description, which is checked when the handle is applied. -/
  description : Description
  /-- What the task is called where tasks are shown. -/
  symbol : String
  isAvailable : Parameters → Bool
  isApplied : Bool

/-- What may be set of a handle after it is made. -/
inductive CallbackHandle.Setting where
  | order (order : Int64)
  | context (context : List TagSet)
  | availability (isAvailable : Parameters → Bool)
  | schema (schema : Json)

namespace CallbackHandle

/-- The handle with something set. Whether it was applied stays. -/
def set (h : CallbackHandle) : Setting → CallbackHandle
  | .order order => { h with description := { h.description with order } }
  | .context context => { h with description := { h.description with context } }
  | .availability isAvailable => { h with isAvailable }
  | .schema schema => { h with description := { h.description with schema := some schema } }

def spec (d : Description) (symbol callback file : String) : CallbackTask.Spec where
  name := d.name
  title := d.title
  symbol := symbol
  description := d.description
  callback := callback
  sourcePath := SourcePath.ofFile file

/-- Adds an action to a registry and then the callback that it runs, and marks the handle as
applied. The file is the one that registers the action. -/
def register (f : Function) (file : String) : InPlace (Registry × CallbackHandle) Unit := do
  let (r, h) ← get
  let callback ← .ofResult (CallbackName.ofTypeName f.typeName)
  if h.symbol.isEmpty || longestSymbol < h.symbol.length then throw (.invalidSymbol h.symbol)
  if h.isApplied then throw (.alreadyRegistered h.description.name)
  if r.callbacks.contains callback then throw (.duplicateCallback callback)
  let task ← .ofResult (TaskHandle.ofDescription h.description)
  let spec := spec task.description h.symbol callback file
  .within (fun s => (s.1, task)) (fun s t => (t.1, s.2))
    (TaskHandle.register (.callback spec h.isAvailable))
  .within Prod.fst (fun s r => (r, s.2)) (Registry.addCallback callback f.run)
  modify fun (r, h) => (r, { h with isApplied := true })

end CallbackHandle

end ActionRegistry
