import ActionRegistry.Proofs.Json.Fields
import ActionRegistry.Task.CallbackTask

/-!
# What the task of a callback hands over

The task names its callback in one place and its group in four. They hold what the task was made
for, whatever the texts around them.
-/

namespace ActionRegistry.CallbackTask

/-- The place that names the callback. -/
def callbackPlace : List String := ["payload", "env", "ACTION_CALLBACK"]

/-- The places that name the group. -/
def groupPlaces : List (List String) :=
  [["taskGroupId"], ["extra", "parent"], ["extra", "action", "context", "taskGroupId"],
    ["payload", "env", "ACTION_TASK_GROUP_ID"]]

theorem field?_obj (name : String) (fields : List (String × Json)) :
    (obj fields).field? name = fields.reverse.lookup name :=
  Json.field?_ofFields name fields

section Inputs

variable (spec : Spec) (ctx : BuildContext) (i : Inputs) (path : List String)

theorem at?_ofInputs_env :
    (ofInputs spec ctx i).at? ("payload" :: "env" :: path) = (environment spec ctx i).at? path := by
  simp [Json.at?_cons, ofInputs, payload, field?_obj, lookup_cons_eq_ite]

theorem at?_ofInputs_extra :
    (ofInputs spec ctx i).at? ("extra" :: path) = (extra spec ctx).at? path := by
  simp [Json.at?_cons, ofInputs, field?_obj]

theorem at?_callbackPlace :
    (ofInputs spec ctx i).at? callbackPlace = some (.string spec.callback) := by
  rw [callbackPlace, at?_ofInputs_env]
  simp [Json.at?_cons, environment, field?_obj, lookup_cons_eq_ite]

theorem at?_groupPlaces {place : List String} (h : place ∈ groupPlaces) :
    (ofInputs spec ctx i).at? place = some (.string ctx.taskGroupId) := by
  simp only [groupPlaces, List.mem_cons, List.not_mem_nil, or_false] at h
  rcases h with rfl | rfl | rfl | rfl
  · simp [Json.at?_cons, ofInputs, field?_obj, lookup_cons_eq_ite]
  · rw [at?_ofInputs_extra]
    simp [Json.at?_cons, extra, field?_obj, lookup_cons_eq_ite]
  · rw [at?_ofInputs_extra]
    simp [Json.at?_cons, extra, field?_obj, lookup_cons_eq_ite]
  · rw [at?_ofInputs_env]
    simp [Json.at?_cons, environment, field?_obj, lookup_cons_eq_ite]

end Inputs

theorem ofSpec_eq_ok_iff {spec : Spec} {ctx : BuildContext} {task : Json} :
    ofSpec spec ctx = .ok task ↔ ∃ i, inputs ctx = .ok i ∧ ofInputs spec ctx i = task := by
  rw [ofSpec]
  cases inputs ctx <;> simp

end ActionRegistry.CallbackTask
