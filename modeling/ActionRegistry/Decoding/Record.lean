import ActionRegistry.Decoding.Failure

/-!
# Records

The fields of a record are described once, by `required` and `optional` joined with `<*>`. The
description serves both forms in which a record may be written: its fields by name in any order, or
its values alone in the order of the description. Values are checked in the order in which they
stand; only then is it told which field is missing.
-/

namespace ActionRegistry.Decoding

structure FieldRule (ν : Type) where
  name : String
  isRequired : Bool
  check : ν → Decoded Unit

/-- The fields of a record, with values of type `ν` that build an `α`. -/
structure Fields (ν α : Type) where
  rules : List (FieldRule ν)
  build : (String → Option ν) → Decoded α

namespace Fields

variable {ν α : Type}

def required (name : String) (decode : ν → Decoded α) : Fields ν α where
  rules := [⟨name, true, fun v => (decode v).map fun _ => ()⟩]
  build values :=
    match values name with
    | some v => decode v
    | none => .error (.here (.missingField name))

def optional (name : String) (default : α) (decode : ν → Decoded α) : Fields ν α where
  rules := [⟨name, false, fun v => (decode v).map fun _ => ()⟩]
  build values :=
    match values name with
    | some v => decode v
    | none => .ok default

instance : Applicative (Fields ν) where
  pure a := ⟨[], fun _ => .ok a⟩
  seq f x := ⟨f.rules ++ (x ()).rules, fun values => do (← f.build values) <$> (x ()).build values⟩
  map f x := ⟨x.rules, fun values => f <$> x.build values⟩

end Fields

structure Record (ν α : Type) where
  title : String
  /-- Whether a name that is no field is refused. -/
  strict : Bool
  fields : Fields ν α

namespace Record

variable {ν α : Type}

def names (r : Record ν α) : List String := r.fields.rules.map (·.name)

/-- How the entries of a record are read off a format. -/
structure Reading (κ ν : Type) where
  name : κ → Decoded String
  /-- Whether a value that no field takes can be passed over. -/
  skip : ν → Decoded Unit
  /-- Where a failure in the value of a key is. -/
  locate : κ → Failure → Failure

/-- The entries that are fields, each checked; those found before come first. -/
def collect {κ : Type} (r : Record ν α) (reading : Reading κ ν) :
    List (κ × ν) → List (String × ν) → Decoded (List (String × ν))
  | [], found => .ok found
  | (key, value) :: entries, found => do
    let name ← reading.name key
    match r.fields.rules.find? (·.name == name) with
    | none =>
      if r.strict then .error (.here (.unknownField name r.names))
      reading.skip value
      r.collect reading entries found
    | some rule =>
      if (found.lookup name).isSome then .error (.here (.duplicateField name))
      (rule.check value).mapError (reading.locate key)
      r.collect reading entries (found ++ [(name, value)])

def ofEntries {κ : Type} (r : Record ν α) (reading : Reading κ ν) (entries : List (κ × ν)) :
    Decoded α := do
  let found ← r.collect reading entries []
  r.fields.build fun name => found.lookup name

def titleWithLength (r : Record ν α) : String :=
  let n := r.fields.rules.length
  r.title ++ " with " ++ toString n ++ (if n = 1 then " element" else " elements")

def ofItems (r : Record ν α) (items : List ν) : Decoded α := do
  (r.fields.rules.zip items).forM fun (rule, item) => rule.check item
  match (r.fields.rules.drop items.length).findIdx? (·.isRequired) with
  | some i => .error (.here (.wrongLength (items.length + i) r.titleWithLength))
  | none =>
    if r.fields.rules.length < items.length then
      .error (.here (.wrongLength items.length "fewer elements in array"))
    r.fields.build fun name => (r.names.zip items).lookup name

end Record

end ActionRegistry.Decoding
