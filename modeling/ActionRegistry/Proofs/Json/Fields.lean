import ActionRegistry.Json.Value

/-!
# The fields of JSON values

An object that is made of a list of fields has for each name the last value given for it. A place
inside a value is a path of names.
-/

namespace ActionRegistry

theorem lookup_foldl_putEntry {α : Type u} (key : String) (fields entries : List (String × α)) :
    (fields.foldl (fun sorted field => putEntry field.1 field.2 sorted) entries).lookup key
      = (fields.reverse.lookup key).or (entries.lookup key) := by
  induction fields generalizing entries with
  | nil => rfl
  | cons field rest ih =>
    rw [List.foldl_cons, ih, lookup_putEntry, List.reverse_cons, List.lookup_append,
      lookup_cons_eq_ite, Option.or_assoc]
    by_cases h : key = field.1
    · rw [if_pos h, if_pos h, Option.some_or]
    · rw [if_neg h, if_neg h, List.lookup_nil, Option.none_or]

namespace Json

theorem field?_ofFields (name : String) (fields : List (String × Json)) :
    (ofFields fields).field? name = fields.reverse.lookup name := by
  rw [ofFields, field?, lookup_foldl_putEntry, List.lookup_nil, Option.or_none]

theorem ofMap_inj {m m' : SortedMap Json} : ofMap m = ofMap m' ↔ m = m' := by
  refine ⟨fun h => SortedMap.ext ?_, fun h => h ▸ rfl⟩
  rw [ofMap, ofMap, Json.object.injEq] at h
  exact h

def at? (v : Json) : List String → Option Json
  | [] => some v
  | name :: path => do (← v.field? name).at? path

@[simp] theorem at?_nil (v : Json) : v.at? [] = some v := rfl

theorem at?_cons (v : Json) (name : String) (path : List String) :
    v.at? (name :: path) = (v.field? name).bind (·.at? path) := rfl

end Json

end ActionRegistry
