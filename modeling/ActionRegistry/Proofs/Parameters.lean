import ActionRegistry.Proofs.Json.Decode
import ActionRegistry.Proofs.Task.Inputs
import ActionRegistry.Proofs.Text.Octets
import ActionRegistry.Proofs.Trigger.Calls

/-!
# Building parameters

Parameters are built of a map, of the fields of an object, by decoding an object and by reading a
file. Each way comes down to the one check of the map, and wraps the key that it finds missing in an
error of its own. So all ways come to the same: the parameters with just the entries of the map, or
the first required key that it lacks.
-/

namespace ActionRegistry.Parameters

open Decoding

variable {m : SortedMap Json} {p : Parameters} {key : String}

/-! ### The ways to build parameters -/

/-- The first of the required keys that a map lacks. -/
def FirstMissing (m : SortedMap Json) (key : String) : Prop :=
  ∃ before after, requiredKeys = before ++ key :: after
    ∧ (∀ k ∈ before, ∃ v, m.get? k = some v) ∧ m.get? key = none

/-- What the ways to build parameters of a map come to: parameters or a missing key. -/
structure IsBuilt (m : SortedMap Json) (outcome : Except String Parameters) : Prop where
  ofMap : Parameters.ofMap m = outcome.mapError .missingParameter
  ofFields : ∀ fields, SortedMap.ofList fields = m →
    Parameters.ofMap (.ofList fields) = outcome.mapError .missingParameter
  ofObject : ∀ fields, SortedMap.ofList fields = m →
    ofJson (.object fields) = outcome.mapError fun key => .here (.missingParameter key)
  ofFile : ∀ (fs : Files) (path : Path) (text : String), fs.readText path = .ok text →
    Yaml.Document.only (Yaml.Document.ofText text) Yaml.Document.jsonMap = .ok m →
    load fs path = outcome.mapError .missingParameter

theorem isBuilt_ofMap? (m : SortedMap Json) : IsBuilt m (ofMap? m) where
  ofMap := rfl
  ofFields := by
    intro fields hfields
    rw [hfields]
    rfl
  ofObject := by
    intro fields hfields
    rw [ofJson, Json.asMap_fields, hfields, Result.ok_bind]
  ofFile := by
    intro fs path text hread hdocument
    rw [load, hread]
    change ofDocuments (Yaml.Document.ofText text) = _
    rw [ofDocuments, hdocument]
    rfl

theorem ofMap?_cases (m : SortedMap Json) :
    (∃ p, ofMap? m = .ok p ∧ p.values = m) ∨ ∃ key, ofMap? m = .error key ∧ FirstMissing m key := by
  cases h : ofMap? m with
  | ok p =>
    have hp : Parameters.ofMap m = .ok p := by rw [Parameters.ofMap, h, Result.mapError_ok]
    exact .inl ⟨p, rfl, ofMap_eq_ok_iff.1 hp⟩
  | error key =>
    have hkey : Parameters.ofMap m = .error (.missingParameter key) := by
      rw [Parameters.ofMap, h, Result.mapError_error]
    obtain ⟨before, missing, after, hkeys, hbefore, hmissing, he⟩ := ofMap_eq_error_iff.1 hkey
    obtain rfl := Error.missingParameter.inj he
    refine .inr ⟨key, rfl, before, after, hkeys, ?_, m.contains_eq_false_iff.1 hmissing⟩
    intro k hk
    exact Option.isSome_iff_exists.1 (hbefore k hk)

/-! ### What parameters hold -/

theorem keys_ascend (m : SortedMap Json) :
    m.keys.Pairwise fun a b => Text.octets a < Text.octets b := by
  rw [SortedMap.keys, List.pairwise_map]
  exact m.ascending.imp Text.octets_lt

theorem count_keys (m : SortedMap Json) (key : String) :
    m.keys.count key = if m.contains key then 1 else 0 := by
  by_cases hkey : m.contains key
  · have hmem : key ∈ m.keys := m.mem_keys_iff.2 (Option.isSome_iff_exists.1 hkey)
    rw [if_pos hkey, List.count_eq_one_of_mem m.keys_nodup hmem]
  · have hmem : key ∉ m.keys := fun hmem =>
      hkey (Option.isSome_iff_exists.2 (m.mem_keys_iff.1 hmem))
    rw [if_neg hkey, List.count_eq_zero_of_not_mem hmem]

theorem text_eq_missing_iff :
    p.text key = .error (.missingParameter key) ↔ p.get? key = none := by
  rw [text]
  cases p.get? key with
  | none => simp
  | some v => cases v <;> simp

theorem text_eq_invalid_iff {got : Json} :
    p.text key = .error (.invalidParameter key got) ↔ p.get? key = some got ∧ ¬got.IsTextual := by
  rw [text]
  cases p.get? key with
  | none => simp
  | some v => cases v <;> simp [Json.IsTextual] <;> rintro rfl <;> simp

/-- **All ways to build parameters agree,** on parameters that hold the map, or on the first
required key that it lacks. -/
theorem all_ways_build_alike (m : SortedMap Json) :
    ((∃ p, IsBuilt m (.ok p) ∧ p.values = m) ∨ ∃ key, IsBuilt m (.error key) ∧ FirstMissing m key)
    ∧ ∀ p, Parameters.ofMap m = .ok p →
      p.toJson = .object m.entries ∧ Json.asMap .ok p.toJson = .ok m
      ∧ (∀ e, e ∈ p.values.entries ↔ m.get? e.1 = some e.2)
      ∧ (∀ key, p.values.keys.count key = if m.contains key then 1 else 0)
      ∧ (p.values.keys.Pairwise fun a b => Text.octets a < Text.octets b)
      ∧ ∀ key,
        ((∃ s, p.text key = .ok s) ↔ ∃ v, m.get? key = some v ∧ v.IsTextual)
        ∧ (p.text key = .error (.missingParameter key) ↔ m.get? key = none)
        ∧ ∀ got, p.text key = .error (.invalidParameter key got)
          ↔ m.get? key = some got ∧ ¬got.IsTextual := by
  constructor
  · have hbuilt := isBuilt_ofMap? m
    rcases ofMap?_cases m with ⟨p, hp, hvalues⟩ | ⟨key, hkey, hmissing⟩
    · exact .inl ⟨p, hp ▸ hbuilt, hvalues⟩
    · exact .inr ⟨key, hkey ▸ hbuilt, hmissing⟩
  · intro p hp
    obtain rfl := ofMap_eq_ok_iff.1 hp
    refine ⟨rfl, Json.asMap_ofMap p.values, ?_, count_keys p.values, keys_ascend p.values, ?_⟩
    · intro e
      rw [SortedMap.get?_eq_some_iff]
    · intro key
      exact ⟨exists_text_iff, text_eq_missing_iff, fun got => text_eq_invalid_iff⟩

end ActionRegistry.Parameters
