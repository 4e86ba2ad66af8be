import ActionRegistry.Json.Value

/-!
# What schemas allow

A schema is a JSON value: a truth value, which allows everything or nothing, or an object of
keywords, each of which may forbid a value. The keywords `type`, `properties` and
`additionalProperties` have their meaning here; of the types, `integer` is left out. All other
keywords are taken as they are in the schemas of this project, where they are for display and forbid
nothing.
-/

namespace ActionRegistry.Json

/-- The type of a value, by its name in schemas. -/
def typeName : Json → String
  | null => "null"
  | bool _ => "boolean"
  | number _ => "number"
  | string _ => "string"
  | array _ => "array"
  | object _ => "object"

/-- The names of the fields that an object has, and none for other values. -/
def fieldNames : Json → List String
  | object fields => fields.map (·.1)
  | _ => []

/-- The values of the fields whose names are not among some names. -/
def othersThan (names : List String) : Json → List Json
  | object fields => (fields.filter fun e => !names.contains e.1).map (·.2)
  | _ => []

mutual

def allows : (schema v : Json) → Bool
  | bool b, _ => b
  | object keywords, v =>
    keywordsAllow (((object keywords).field? "properties").elim [] fieldNames) keywords v
  | _, _ => false

/-- Whether all of some keywords allow a value. The names are those of the properties. -/
def keywordsAllow (names : List String) : (keywords : List (String × Json)) → Json → Bool
  | [], _ => true
  | (keyword, argument) :: rest, v =>
    (if keyword = "type" then argument.text?.all (v.typeName == ·)
      else if keyword = "properties" then propertiesAllow argument v
      else if keyword = "additionalProperties" then
        (v.othersThan names).all fun other => allows argument other
      else true)
    && keywordsAllow names rest v

def propertiesAllow : (properties v : Json) → Bool
  | object schemas, v => fieldsAllow schemas v
  | _, _ => true

def fieldsAllow : (schemas : List (String × Json)) → Json → Bool
  | [], _ => true
  | (name, schema) :: rest, v =>
    (v.field? name).all (fun part => allows schema part) && fieldsAllow rest v

end

theorem fieldsAllow_iff {schemas : List (String × Json)} {v : Json} :
    fieldsAllow schemas v = true ↔
      ∀ s ∈ schemas, ∀ part, v.field? s.1 = some part → allows s.2 part = true := by
  induction schemas with
  | nil => simp [fieldsAllow]
  | cons s rest ih =>
    obtain ⟨name, schema⟩ := s
    rw [fieldsAllow, Bool.and_eq_true, ih, List.forall_mem_cons]
    cases v.field? name <;> simp

theorem othersThan_object_eq_nil_iff {names : List String} {fields : List (String × Json)} :
    (object fields).othersThan names = [] ↔ ∀ e ∈ fields, e.1 ∈ names := by
  simp [othersThan]

theorem eq_object_of_typeName {v : Json} (h : v.typeName = "object") :
    ∃ fields, v = object fields := by
  cases v with
  | object fields => exact ⟨fields, rfl⟩
  | _ => simp [typeName] at h

theorem eq_string_of_typeName {v : Json} (h : v.typeName = "string") : ∃ s, v = string s := by
  cases v with
  | string s => exact ⟨s, rfl⟩
  | _ => simp [typeName] at h

/-- A schema of an object that may have the declared fields and no others. -/
def closedSchema (properties : List (String × Json)) : Json :=
  object [("additionalProperties", bool false), ("properties", object properties),
    ("type", string "object")]

/-- A closed schema allows the objects whose fields are declared and allowed by their schemas. -/
theorem allows_closedSchema_iff {properties : List (String × Json)} {v : Json} :
    allows (closedSchema properties) v = true ↔ ∃ fields, v = object fields
      ∧ (∀ e ∈ fields, e.1 ∈ properties.map (·.1))
      ∧ ∀ s ∈ properties, ∀ part, fields.lookup s.1 = some part → allows s.2 part = true := by
  have hnames : ((closedSchema properties).field? "properties").elim [] fieldNames
      = properties.map (·.1) := by
    simp [closedSchema, field?, fieldNames, lookup_cons_eq_ite]
  have hallows : allows (closedSchema properties) v = true ↔
      v.othersThan (properties.map (·.1)) = [] ∧ fieldsAllow properties v = true
        ∧ v.typeName = "object" := by
    rw [closedSchema, allows, ← closedSchema, hnames]
    simp [keywordsAllow, propertiesAllow, allows, text?, List.eq_nil_iff_forall_not_mem]
  rw [hallows]
  constructor
  · rintro ⟨hothers, hfields, hobject⟩
    obtain ⟨fields, rfl⟩ := eq_object_of_typeName hobject
    exact ⟨fields, rfl, othersThan_object_eq_nil_iff.1 hothers, fieldsAllow_iff.1 hfields⟩
  · rintro ⟨fields, hv, hknown, hfields⟩
    subst hv
    exact ⟨othersThan_object_eq_nil_iff.2 hknown, fieldsAllow_iff.2 hfields, rfl⟩

end ActionRegistry.Json
