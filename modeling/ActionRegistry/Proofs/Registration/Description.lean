import ActionRegistry.Action.Registration
import ActionRegistry.Proofs.Text.Trim

/-!
# Checked descriptions

A description that passes the checks has trimmed texts and a schema that is one. Checking it only
trims its texts.
-/

namespace ActionRegistry

inductive IsSchema : Option Json → Prop where
  | absent : IsSchema none
  | object (fields : List (String × Json)) : IsSchema (some (.object fields))
  | bool (value : Bool) : IsSchema (some (.bool value))

namespace Description

/-- A description as registered actions have it. -/
structure IsChecked (d : Description) : Prop where
  name : Text.IsTrimmed d.name
  title : Text.IsTrimmed d.title
  description : Text.IsTrimmed d.description
  schema : IsSchema d.schema

theorem isSchema_of_checkSchema {schema : Option Json} {u : Unit}
    (h : checkSchema schema = .ok u) : IsSchema schema := by
  unfold checkSchema at h
  split at h
  · exact .absent
  · exact .object _
  · exact .bool _
  · cases h

theorem trimmed_eq_ok {field : ActionField} {s t : String} (h : trimmed field s = .ok t) :
    t = Text.trim s ∧ Text.IsTrimmed t := by
  simp only [trimmed] at h
  split at h
  · cases h
  · next hblank =>
    cases h
    exact ⟨rfl, Text.isTrimmed_trim (by simpa using hblank)⟩

theorem checked_eq_ok {d d' : Description} (h : d.checked = .ok d') :
    d' = { d with
        name := Text.trim d.name
        title := Text.trim d.title
        description := Text.trim d.description }
      ∧ d'.IsChecked := by
  rw [checked] at h
  cases hschema : checkSchema d.schema with
  | error e => simp [hschema] at h
  | ok u =>
    cases hname : trimmed .name d.name with
    | error e => simp [hschema, hname] at h
    | ok name =>
      cases htitle : trimmed .title d.title with
      | error e => simp [hschema, hname, htitle] at h
      | ok title =>
        cases htext : trimmed .description d.description with
        | error e => simp [hschema, hname, htitle, htext] at h
        | ok description =>
          simp only [hschema, hname, htitle, htext, Result.ok_bind, Except.ok.injEq] at h
          obtain ⟨rfl, hname⟩ := trimmed_eq_ok hname
          obtain ⟨rfl, htitle⟩ := trimmed_eq_ok htitle
          obtain ⟨rfl, htext⟩ := trimmed_eq_ok htext
          subst h
          exact ⟨rfl, hname, htitle, htext, isSchema_of_checkSchema hschema⟩

end Description

end ActionRegistry
