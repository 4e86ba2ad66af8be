import ActionRegistry.Error
import ActionRegistry.Files.Write
import ActionRegistry.Json.Decode
import ActionRegistry.Yaml.Decode

/-!
# Run parameters

Parameters are an open map: every key of a run is kept. The keys that the task of a callback is
built from must be there, whatever their values; a value is looked at only when its text is asked
for.
-/

namespace ActionRegistry

/-- The keys that must be there, in the order in which a missing one is told. -/
def requiredKeys : List String :=
  ["head_repository", "head_rev", "head_ref", "level", "owner", "project", "pushlog_id"]

structure Parameters where
  values : SortedMap Json
  complete : ∀ key ∈ requiredKeys, values.contains key = true

namespace Parameters

def missing? (values : SortedMap Json) : Option String :=
  requiredKeys.find? fun key => !values.contains key

theorem contains_of_missing_none {values : SortedMap Json} (h : missing? values = none) :
    ∀ key ∈ requiredKeys, values.contains key = true := by
  intro key hkey
  simpa using List.find?_eq_none.1 h key hkey

/-- The parameters that a map holds, or else the first required key that it lacks. -/
def ofMap? (values : SortedMap Json) : Except String Parameters :=
  match h : missing? values with
  | none => .ok ⟨values, contains_of_missing_none h⟩
  | some key => .error key

def ofMap (values : SortedMap Json) : Result Parameters :=
  (ofMap? values).mapError .missingParameter

theorem ofMap_values (p : Parameters) : ofMap p.values = .ok p := by
  have hmissing : missing? p.values = none := by
    rw [missing?, List.find?_eq_none]
    intro key hkey
    simp [p.complete key hkey]
  rw [ofMap, ofMap?]
  split
  · rfl
  · next key hkey => cases hmissing.symm.trans hkey

def ofJson (v : Json) : Decoding.Decoded Parameters := do
  let values ← v.asMap .ok
  (ofMap? values).mapError fun key => .here (.missingParameter key)

def ofDocuments (documents : List Yaml.Document) : Result Parameters := do
  let values ← (Yaml.Document.only documents Yaml.Document.jsonMap).mapError .yaml
  ofMap values

def load (fs : Files) (path : Path) : Result Parameters := do
  let text ← Result.ofFile (fs.readText path)
  ofDocuments (Yaml.Document.ofText text)

def toJson (p : Parameters) : Json := .ofMap p.values

def get? (p : Parameters) (key : String) : Option Json := p.values.get? key

/-- The text of a key, whose value is a text or a number. -/
def text (p : Parameters) (key : String) : Result String :=
  match p.get? key with
  | none => .error (.missingParameter key)
  | some (.string s) => .ok s
  | some (.number n) => .ok n.text
  | some v => .error (.invalidParameter key v)

def headRepository (p : Parameters) : Result String := p.text "head_repository"

def headRev (p : Parameters) : Result String := p.text "head_rev"

def headRef (p : Parameters) : Result String := p.text "head_ref"

def level (p : Parameters) : Result String := p.text "level"

def owner (p : Parameters) : Result String := p.text "owner"

def project (p : Parameters) : Result String := p.text "project"

def pushlogId (p : Parameters) : Result String := p.text "pushlog_id"

end Parameters

end ActionRegistry
