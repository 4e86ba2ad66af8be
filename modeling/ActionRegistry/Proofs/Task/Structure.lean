import ActionRegistry.Proofs.Json.Template
import ActionRegistry.Proofs.Trigger.Dispatch

/-!
# The structure of the task of a callback

The texts of a run fill holes of the task and nothing else: every task fits one template, in which
each name of a field is written down but the one of the cache, which starts with `level-`. So two
tasks differ in their leaves and in that name only. Expressions are told by names that start with a
dollar sign, so they stand at the same positions in all tasks, and those that the task is triggered
with have the same operands.
-/

namespace ActionRegistry.CallbackTask

open Json (Key Template)
open Json.Template (Fits FitsFields FitsItems eq_of_isFull mem_parts_of_part?)

/-! ### The template -/

/-- A template for an object of texts. -/
def textsTemplate (names : List String) : Template := .object (names.map (·, .text))

def fromNowTemplate : Template := .object [("$fromNow", .text)]

def evalTemplate (expression : String) : Template := .object [("$eval", .word expression)]

def jsonOfTemplate (expression : String) : Template :=
  .object [("$json", evalTemplate expression)]

def environmentTemplate : Template :=
  .object [
    ("GECKO_BASE_REPOSITORY", .text),
    ("GECKO_HEAD_REPOSITORY", .text),
    ("GECKO_HEAD_REF", .text),
    ("GECKO_HEAD_REV", .text),
    ("HG_STORE_PATH", .text),
    ("ACTION_TASK_GROUP_ID", .text),
    ("ACTION_TASK_ID", jsonOfTemplate "taskId"),
    ("ACTION_TASK", jsonOfTemplate "task"),
    ("ACTION_INPUT", jsonOfTemplate "input"),
    ("ACTION_CALLBACK", .text),
    ("ACTION_PARAMETERS", jsonOfTemplate "parameters"),
    ("TASKCLUSTER_CACHES", .text)]

def payloadTemplate : Template :=
  .object [
    ("env", environmentTemplate),
    ("artifacts", .object [
      ("public", .object [("type", .text), ("path", .text), ("expires", fromNowTemplate)])]),
    ("cache", .entry "level-"),
    ("features", .object [("taskclusterProxy", .bool true), ("chainOfTrust", .bool true)]),
    ("image", .text),
    ("maxRunTime", .number),
    ("command", .array (List.replicate 7 .text))]

def extraTemplate : Template :=
  .object [
    ("treeherder", textsTemplate ["groupName", "groupSymbol", "symbol"]),
    ("parent", .text),
    ("action", .object [
      ("name", .text),
      ("context", .object [
        ("taskGroupId", .text),
        ("taskId", evalTemplate "taskId"),
        ("input", evalTemplate "input"),
        ("parameters", evalTemplate "parameters")])])]

/-- What every task fits. -/
def template : Template :=
  .object [
    ("created", fromNowTemplate),
    ("deadline", fromNowTemplate),
    ("expires", fromNowTemplate),
    ("metadata", textsTemplate ["owner", "source", "name", "description"]),
    ("workerType", .text),
    ("provisionerId", .text),
    ("taskGroupId", .text),
    ("schedulerId", .text),
    ("scopes", .array [.text]),
    ("tags", textsTemplate ["createdForUser", "kind"]),
    ("routes", .array (List.replicate 3 .text)),
    ("payload", payloadTemplate),
    ("extra", extraTemplate)]

/-! ### Every task fits -/

section Fits

theorem fits_obj {ts : List (String × Template)} {fields : List (String × Json)}
    (h : FitsFields ts fields) : (Template.object ts).Fits (obj fields) := ⟨fields, rfl, h⟩

theorem fits_array {ts : List Template} {items : List Json} (h : FitsItems ts items) :
    (Template.array ts).Fits (.array items) := ⟨items, rfl, h⟩

theorem fits_texts (fields : List (String × String)) :
    (textsTemplate (fields.map (·.1))).Fits (obj (fields.map fun f => (f.1, .string f.2))) := by
  apply fits_obj
  induction fields with
  | nil => rfl
  | cons field rest ih => exact ⟨rfl, ⟨field.2, rfl⟩, ih⟩

theorem fits_textItems (items : List String) :
    (Template.array (List.replicate items.length .text)).Fits (.array (items.map .string)) := by
  apply fits_array
  induction items with
  | nil => rfl
  | cons item rest ih => exact ⟨⟨item, rfl⟩, ih⟩

theorem fits_fromNow (offset : String) : fromNowTemplate.Fits (fromNow offset) :=
  fits_obj ⟨rfl, ⟨offset, rfl⟩, rfl⟩

theorem fits_eval (expression : String) : (evalTemplate expression).Fits (eval expression) :=
  fits_obj ⟨rfl, rfl, rfl⟩

theorem fits_jsonOf (expression : String) : (jsonOfTemplate expression).Fits (jsonOf expression) :=
  fits_obj ⟨rfl, fits_eval expression, rfl⟩

variable (spec : Spec) (ctx : BuildContext) (config : TaskConfig) (i : Inputs)

theorem fits_metadata :
    (textsTemplate ["owner", "source", "name", "description"]).Fits (metadata spec config i) :=
  fits_texts [(_, _), (_, _), (_, _), (_, _)]

theorem fits_routes : (Template.array (List.replicate 3 .text)).Fits (routes config i) :=
  fits_textItems [_, _, _]

theorem fits_environment : environmentTemplate.Fits (environment spec ctx i) :=
  fits_obj (by simp [FitsFields, Fits, fits_jsonOf])

theorem fits_command : (Template.array (List.replicate 7 .text)).Fits (command config) :=
  fits_textItems [_, _, _, _, _, _, _]

theorem fits_artifacts (expires : String) :
    (Template.object [("public",
      .object [("type", .text), ("path", .text), ("expires", fromNowTemplate)])]).Fits
    (obj [("public", obj [("type", .string "directory"), ("path", .string artifacts),
      ("expires", fromNow expires)])]) :=
  fits_obj ⟨rfl, fits_obj ⟨rfl, ⟨_, rfl⟩, rfl, ⟨_, rfl⟩, rfl, fits_fromNow expires, rfl⟩, rfl⟩

/-- The name of the cache starts with what the code writes, whatever the level is. -/
theorem fits_cache (level : String) : (Template.entry "level-").Fits
    (obj [("level-" ++ level ++ "-checkouts-sparse-v1", .string checkouts)]) := by
  refine ⟨_, _, rfl, ?_⟩
  rw [String.append_assoc, String.toList_append]
  exact List.prefix_append _ _

theorem fits_payload : payloadTemplate.Fits (payload spec ctx i) := by
  have hfeatures : (Template.object [("taskclusterProxy", .bool true),
      ("chainOfTrust", .bool true)]).Fits
      (obj [("taskclusterProxy", .bool true), ("chainOfTrust", .bool true)]) :=
    fits_obj ⟨rfl, rfl, rfl, rfl, rfl⟩
  exact fits_obj ⟨rfl, fits_environment spec ctx i, rfl, fits_artifacts ctx.config.expires,
    rfl, fits_cache i.level, rfl, hfeatures, rfl, ⟨_, rfl⟩, rfl, ⟨_, rfl⟩,
    rfl, fits_command ctx.config, rfl⟩

theorem fits_extra : extraTemplate.Fits (extra spec ctx) := by
  have htreeherder : (textsTemplate ["groupName", "groupSymbol", "symbol"]).Fits
      (obj [("groupName", .string "action-callback"), ("groupSymbol", .string "AC"),
        ("symbol", .string spec.symbol)]) :=
    fits_texts [(_, _), (_, _), (_, _)]
  have hcontext : (Template.object [("taskGroupId", .text), ("taskId", evalTemplate "taskId"),
      ("input", evalTemplate "input"), ("parameters", evalTemplate "parameters")]).Fits
      (obj [("taskGroupId", .string ctx.taskGroupId), ("taskId", eval "taskId"),
        ("input", eval "input"), ("parameters", eval "parameters")]) :=
    fits_obj ⟨rfl, ⟨_, rfl⟩, rfl, fits_eval _, rfl, fits_eval _, rfl, fits_eval _, rfl⟩
  exact fits_obj ⟨rfl, htreeherder, rfl, ⟨ctx.taskGroupId, rfl⟩,
    rfl, fits_obj ⟨rfl, ⟨spec.name, rfl⟩, rfl, hcontext, rfl⟩, rfl⟩

theorem fits_ofInputs : template.Fits (ofInputs spec ctx i) := by
  have htags : (textsTemplate ["createdForUser", "kind"]).Fits
      (obj [("createdForUser", .string i.owner), ("kind", .string "action-callback")]) :=
    fits_texts [(_, _), (_, _)]
  have hscopes : (Template.array [.text]).Fits (.array [.string i.scope]) := fits_textItems [_]
  exact fits_obj ⟨rfl, fits_fromNow "", rfl, fits_fromNow ctx.config.deadline,
    rfl, fits_fromNow ctx.config.expires, rfl, fits_metadata spec ctx.config i,
    rfl, ⟨_, rfl⟩, rfl, ⟨_, rfl⟩, rfl, ⟨_, rfl⟩, rfl, ⟨_, rfl⟩, rfl, hscopes, rfl, htags,
    rfl, fits_routes ctx.config i, rfl, fits_payload spec ctx i, rfl, fits_extra spec ctx, rfl⟩

theorem fits_ofSpec {spec : Spec} {ctx : BuildContext} {task : Json}
    (h : ofSpec spec ctx = .ok task) : template.Fits task := by
  obtain ⟨i, _, rfl⟩ := ofSpec_eq_ok_iff.1 h
  exact fits_ofInputs spec ctx i

end Fits

/-! ### What is read off the template -/

/-- The position of the one object with a name that is not written down. -/
def cachePlace : List Key := [.field "payload", .field "cache"]

def expressionPlaces : List (List Key) :=
  [["created", "$fromNow"], ["deadline", "$fromNow"], ["expires", "$fromNow"],
    ["payload", "env", "ACTION_TASK_ID", "$json"],
    ["payload", "env", "ACTION_TASK_ID", "$json", "$eval"],
    ["payload", "env", "ACTION_TASK", "$json"],
    ["payload", "env", "ACTION_TASK", "$json", "$eval"],
    ["payload", "env", "ACTION_INPUT", "$json"],
    ["payload", "env", "ACTION_INPUT", "$json", "$eval"],
    ["payload", "env", "ACTION_PARAMETERS", "$json"],
    ["payload", "env", "ACTION_PARAMETERS", "$json", "$eval"],
    ["payload", "artifacts", "public", "expires", "$fromNow"],
    ["extra", "action", "context", "taskId", "$eval"],
    ["extra", "action", "context", "input", "$eval"],
    ["extra", "action", "context", "parameters", "$eval"]].map (List.map .field)

theorem part?_cachePlace : template.part? cachePlace = some (.entry "level-") := rfl

/-- Whether a key leads to a field whose name starts with a dollar sign. -/
def isExpression : Key → Bool
  | .field name => "$".toList.isPrefixOf name.toList
  | .item _ => false

/-- Everything that is decided by going through the template, in one walk. -/
theorem places_template : (∀ p ∈ template.parts,
      (p.2.isEntry = true → p.1 = cachePlace)
      ∧ (p.1.getLast?.any isExpression = true → p.1 ∈ expressionPlaces)
      ∧ (p.1.getLast? = some (.field "$eval") ∨ p.1.getLast? = some (.field "$json") →
        p.2.isFull = true))
    ∧ ∀ place ∈ expressionPlaces, (template.part? place).isSome = true := by
  decide +kernel

theorem eq_cachePlace_of_isEntry :
    ∀ p ∈ template.parts, p.2.isEntry = true → p.1 = cachePlace :=
  fun p hp => (places_template.1 p hp).1

theorem mem_expressionPlaces_of_mem_parts :
    ∀ p ∈ template.parts, p.1.getLast?.any isExpression = true → p.1 ∈ expressionPlaces :=
  fun p hp => (places_template.1 p hp).2.1

theorem isSome_part?_of_mem_expressionPlaces :
    ∀ place ∈ expressionPlaces, (template.part? place).isSome = true :=
  places_template.2

theorem isFull_of_mem_parts : ∀ p ∈ template.parts,
    p.1.getLast? = some (.field "$eval") ∨ p.1.getLast? = some (.field "$json") →
      p.2.isFull = true :=
  fun p hp => (places_template.1 p hp).2.2

/-- The position of the cache holds one text, and the expressions are where they are expected. -/
structure IsLaidOut (task : Json) : Prop where
  cache : ∃ name s, task.part? cachePlace = some (.object [(name, .string s)])
    ∧ "level-".toList <+: name.toList
  expressions : ∀ (place : List Key) (name : String), "$".toList <+: name.toList →
    ((task.part? (place ++ [.field name])).isSome = true
      ↔ place ++ [.field name] ∈ expressionPlaces)

section Runs

variable {spec spec' : Spec} {ctx ctx' : BuildContext} {task task' : Json}

theorem part?_eq_none (h : ofSpec spec ctx = .ok task) {place : List Key}
    (hnone : template.part? place = none) :
    task.part? place = none ∨ ∃ key after, place = cachePlace ++ key :: after := by
  refine ((fits_ofSpec h).part?_eq_none hnone).imp_right ?_
  rintro ⟨before, key, after, start, rfl, hentry⟩
  have hbefore := eq_cachePlace_of_isEntry _ (mem_parts_of_part? hentry) rfl
  exact ⟨key, after, hbefore ▸ rfl⟩

/-- All that is behind an object of one text is the text. -/
theorem eq_field_of_isSome {name s : String} {key : Key} {after : List Key}
    (h : ((Json.object [(name, .string s)]).part? (key :: after)).isSome = true) :
    key = .field name ∧ after = [] := by
  cases key with
  | item index => cases h
  | field found =>
    have hinto : (Json.object [(name, .string s)]).into? (.field found)
        = if found = name then some (.string s) else none := by
      rw [Json.into?, lookup_cons_eq_ite, List.lookup_nil]
    rw [Json.part?, hinto] at h
    by_cases hname : found = name
    · cases after with
      | nil => exact ⟨congrArg _ hname, rfl⟩
      | cons next after =>
        rw [if_pos hname] at h
        cases next <;> cases h
    · rw [if_neg hname] at h
      cases h

theorem isLaidOut_of_ofSpec (h : ofSpec spec ctx = .ok task) : IsLaidOut task := by
  obtain ⟨_, hcache, cache, s, rfl, hlevel⟩ := (fits_ofSpec h).exists_part part?_cachePlace
  refine ⟨⟨cache, s, hcache, hlevel⟩, fun place name hname => ⟨fun hsome => ?_, fun hmem => ?_⟩⟩
  · cases hpart : template.part? (place ++ [.field name]) with
    | some part =>
      refine mem_expressionPlaces_of_mem_parts _ (mem_parts_of_part? hpart) ?_
      rw [List.getLast?_concat]
      exact List.isPrefixOf_iff_prefix.2 hname
    | none =>
      rcases part?_eq_none h hpart with hnone | ⟨key, after, hplace⟩
      · rw [hnone] at hsome
        cases hsome
      · rw [hplace, Json.part?_append, hcache] at hsome
        obtain ⟨rfl, rfl⟩ := eq_field_of_isSome hsome
        have hlast := congrArg List.getLast? hplace
        rw [List.getLast?_concat, List.getLast?_concat] at hlast
        cases hlast
        -- No name starts with a dollar sign and with `level-`.
        exact absurd (List.prefix_or_prefix_of_prefix hname hlevel) (by decide)
  · obtain ⟨part, hpart⟩ := Option.isSome_iff_exists.1 (isSome_part?_of_mem_expressionPlaces _ hmem)
    obtain ⟨v, hv, _⟩ := (fits_ofSpec h).exists_part hpart
    rw [hv]
    rfl

theorem form_part?_eq (h : ofSpec spec ctx = .ok task) (h' : ofSpec spec' ctx' = .ok task')
    {place : List Key} (hplace : ¬ cachePlace <+: place) :
    (task.part? place).map Json.form = (task'.part? place).map Json.form := by
  cases hpart : template.part? place with
  | some part =>
    obtain ⟨v, hv, hfits⟩ := (fits_ofSpec h).exists_part hpart
    obtain ⟨v', hv', hfits'⟩ := (fits_ofSpec h').exists_part hpart
    have hentry : part.isEntry = false := by
      rw [Bool.eq_false_iff]
      intro hentry
      have hcache := eq_cachePlace_of_isEntry _ (mem_parts_of_part? hpart) hentry
      exact hplace (hcache ▸ List.prefix_refl _)
    rw [hv, hv', Option.map_some, Option.map_some, hfits.form_eq hfits' hentry]
  | none =>
    have hbehind : ¬ ∃ key after, place = cachePlace ++ key :: after := by
      rintro ⟨key, after, rfl⟩
      exact hplace (List.prefix_append _ _)
    rw [(part?_eq_none h hpart).resolve_right hbehind,
      (part?_eq_none h' hpart).resolve_right hbehind]

theorem operand_eq (h : ofSpec spec ctx = .ok task) (h' : ofSpec spec' ctx' = .ok task')
    (place : List Key) {name : String} (hname : name = "$eval" ∨ name = "$json") :
    task.part? (place ++ [.field name]) = task'.part? (place ++ [.field name]) := by
  have hdollar : "$".toList <+: name.toList := by
    rcases hname with rfl | rfl <;> decide
  have hiff := (isLaidOut_of_ofSpec h).expressions place name hdollar
  have hiff' := (isLaidOut_of_ofSpec h').expressions place name hdollar
  by_cases hmem : place ++ [.field name] ∈ expressionPlaces
  · obtain ⟨part, hpart⟩ := Option.isSome_iff_exists.1 (isSome_part?_of_mem_expressionPlaces _ hmem)
    obtain ⟨v, hv, hfits⟩ := (fits_ofSpec h).exists_part hpart
    obtain ⟨v', hv', hfits'⟩ := (fits_ofSpec h').exists_part hpart
    have hfull : part.isFull = true := by
      refine isFull_of_mem_parts _ (mem_parts_of_part? hpart) ?_
      rw [List.getLast?_concat]
      exact hname.imp (congrArg _ <| congrArg _ ·) (congrArg _ <| congrArg _ ·)
    rw [hv, hv', eq_of_isFull part hfull hfits hfits']
  · have hnone := mt hiff.1 hmem
    have hnone' := mt hiff'.1 hmem
    rw [Option.not_isSome_iff_eq_none] at hnone hnone'
    rw [hnone, hnone']

end Runs

/-- **The structure of a task is fixed,** whatever the texts of its run are, except for one name in
the cache, which starts with `level-`. -/
theorem task_structure_is_fixed {spec spec' : Spec} {ctx ctx' : BuildContext} {task task' : Json}
    (h : ofSpec spec ctx = .ok task) (h' : ofSpec spec' ctx' = .ok task') :
    (∀ place, ¬ cachePlace <+: place →
      (task.part? place).map Json.form = (task'.part? place).map Json.form)
    ∧ IsLaidOut task ∧ IsLaidOut task'
    ∧ ∀ (place : List Key) (name : String), name = "$eval" ∨ name = "$json" →
      task.part? (place ++ [.field name]) = task'.part? (place ++ [.field name]) :=
  ⟨fun _ hplace => form_part?_eq h h' hplace, isLaidOut_of_ofSpec h, isLaidOut_of_ofSpec h',
    fun place _ hname => operand_eq h h' place hname⟩

/-- Texts that look like expressions are leaves like all others. -/
theorem task_structure_is_fixed_for_dollars :
    let plain : Spec := ⟨"retry", "Retry", "rt", "Runs it again.", "retry", "src/hooks.rs"⟩
    let odd : Spec := ⟨"$eval", "$json", "$", "\"]", "$eval", "$fromNow"⟩
    let ctx : BuildContext := { BuildContext.sample with taskGroupId := "$eval" }
    let place : List Key := [.field "payload", .field "env", .field "ACTION_TASK"]
    ∃ task task', ofSpec plain .sample = .ok task ∧ ofSpec odd ctx = .ok task'
      ∧ (task.part? [.field "extra"]).map Json.form = (task'.part? [.field "extra"]).map Json.form
      ∧ (task'.part? ([.field "extra"] ++ [.field "$eval"])).isSome = false
      ∧ task.part? (place ++ [.field "$json"]) = task'.part? (place ++ [.field "$json"]) := by
  intro plain odd ctx place
  have hplain : (ofSpec plain .sample).isOk = true := by decide +kernel
  have hodd : (ofSpec odd ctx).isOk = true := by decide +kernel
  obtain ⟨task, htask⟩ := Result.isOk_iff.1 hplain
  obtain ⟨task', htask'⟩ := Result.isOk_iff.1 hodd
  obtain ⟨hform, -, hlaidOut, hoperand⟩ := task_structure_is_fixed htask htask'
  refine ⟨task, task', htask, htask', hform _ (by decide), ?_, hoperand place _ (.inr rfl)⟩
  rw [Bool.eq_false_iff, Ne, hlaidOut.expressions _ _ (by decide)]
  decide

end ActionRegistry.CallbackTask
