import ActionRegistry.Proofs.Decoding.Record
import ActionRegistry.Proofs.Registration.Step

/-!
# What a declaration registers

A text that declares an action is read in stages: there are two documents, the first is a mapping
with the fields of a description, and the second is a JSON value. The first stage that fails is told
under the origin of the text, and nothing is registered. Where all succeed, registering the text
does what describing the action and applying its handle do, with a builder that gives the second
document whatever the run. So the task of such an action is the same in every context.
-/

namespace ActionRegistry.Declarative

open Decoding InPlace

/-! ### The first document -/

/-- Fields that describe an action. A context and a schema do not have to be there. -/
structure Describes (values : List (String × Yaml.Value)) (d : Description) : Prop where
  distinct : (values.map (·.1)).Nodup
  known : ∀ v ∈ values, v.1 ∈ ["name", "title", "description", "order", "context", "schema"]
  name : ∃ v, values.lookup "name" = some v ∧ v.untag = .text d.name
  title : ∃ v, values.lookup "title" = some v ∧ v.untag = .text d.title
  description : ∃ v, values.lookup "description" = some v ∧ v.untag = .text d.description
  order : ∃ v, values.lookup "order" = some v ∧ v.untag = .integer d.order.toInt
  context : (values.lookup "context" = none ∧ d.context = [])
    ∨ ∃ v, values.lookup "context" = some v
      ∧ v.asList (Yaml.Value.asMap (Yaml.Value.asText "a string")) = .ok d.context
  schema : (values.lookup "schema" = none ∧ d.schema = none)
    ∨ ∃ v, values.lookup "schema" = some v ∧ v.asOption Yaml.Value.toJson = .ok d.schema

/-- A mapping whose keys are texts and whose fields describe an action. -/
def IsFrontMatter (front : Yaml.Value) (d : Description) : Prop :=
  ∃ entries values, front.untag = .mapping entries
    ∧ List.Forall₂ (fun e v => e.1.untag = .text v.1 ∧ e.2 = v.2) entries values
    ∧ Describes values d

theorem asText_eq_ok_iff {expected : String} {v : Yaml.Value} {s : String} :
    v.asText expected = .ok s ↔ v.untag = .text s := by
  rw [Yaml.Value.asText]
  cases v.untag <;> simp [wrongType]

theorem fitsSigned_toInt (n : Int64) : fitsSigned 64 n.toInt = true := by
  have hlow : -2 ^ 63 ≤ n.toInt := Int64.le_toInt n
  have hhigh : n.toInt < 2 ^ 63 := Int64.toInt_lt n
  simp [fitsSigned]
  omega

theorem asInt64_eq_ok_iff {v : Yaml.Value} {n : Int64} :
    v.asInt64 = .ok n ↔ v.untag = .integer n.toInt := by
  rw [Yaml.Value.asInt64]
  cases v.untag with
  | integer k =>
    rw [Yaml.Value.integer.injEq]
    constructor
    · intro h
      by_cases hfits : fitsSigned 64 k = true
      · simp only [hfits, if_true, Except.ok.injEq] at h
        simp [fitsSigned] at hfits
        rw [← h, Int64.toInt_ofInt_of_le (by omega) (by omega)]
      · simp [hfits, wrongValue] at h
    · rintro rfl
      simp [fitsSigned_toInt]
  | _ => simp [wrongType]

theorem isChecked_fields : record.fields.IsChecked := by
  refine .seq (.seq (.seq (.seq (.seq (.map ?_ _) ?_) ?_) ?_) ?_) ?_
  · exact Fields.isChecked_required _ _
  · exact Fields.isChecked_required _ _
  · exact Fields.isChecked_required _ _
  · exact Fields.isChecked_required _ _
  · exact Fields.isChecked_optional _ _ _
  · exact Fields.isChecked_optional _ _ _

theorem build_eq_ok_iff {values : List (String × Yaml.Value)} {d : Description}
    (hdistinct : (values.map (·.1)).Nodup) (hknown : ∀ v ∈ values, v.1 ∈ record.names) :
    record.fields.build (fun name => values.lookup name) = .ok d ↔ Describes values d := by
  simp only [record, Fields.build_seq_eq_ok, Fields.build_map_eq_ok, Fields.build_required_eq_ok,
    Fields.build_optional_eq_ok, asText_eq_ok_iff, asInt64_eq_ok_iff]
  constructor
  · rintro ⟨_, schema, ⟨_, context, ⟨_, order, ⟨_, description, ⟨_, title, ⟨name, hname, rfl⟩,
      htitle, rfl⟩, hdescription, rfl⟩, horder, rfl⟩, hcontext, rfl⟩, hschema, rfl⟩
    exact ⟨hdistinct, hknown, hname, htitle, hdescription, horder,
      hcontext.imp_left (.imp_right Eq.symm), hschema.imp_left (.imp_right Eq.symm)⟩
  · intro h
    refine ⟨_, d.schema, ⟨_, d.context, ⟨_, d.order, ⟨_, d.description, ⟨_, d.title,
      ⟨d.name, h.name, rfl⟩, h.title, rfl⟩, h.description, rfl⟩, h.order, rfl⟩, ?_, rfl⟩, ?_, rfl⟩
    · exact h.context.imp_left (.imp_right Eq.symm)
    · exact h.schema.imp_left (.imp_right Eq.symm)

/-- **What front-matter reads.** It has to be a mapping, and says what its fields describe. -/
theorem asRecord_eq_ok_iff {front : Yaml.Value} {d : Description} :
    front.asRecord record = .ok d ↔ IsFrontMatter front d := by
  have hentries : ∀ entries, record.ofEntries Yaml.Value.reading entries = .ok d ↔
      ∃ values, List.Forall₂ (fun e v => e.1.untag = .text v.1 ∧ e.2 = v.2) entries values
        ∧ Describes values d := by
    intro entries
    have hreads : ∀ values, Record.Reads Yaml.Value.reading entries values ↔
        List.Forall₂ (fun e v => e.1.untag = .text v.1 ∧ e.2 = v.2) entries values := by
      intro values
      simp only [Record.Reads, Yaml.Value.reading, asText_eq_ok_iff]
    rw [Record.ofEntries_eq_ok_iff rfl isChecked_fields]
    simp only [hreads]
    constructor
    · rintro ⟨values, hreads, hdistinct, hknown, hbuild⟩
      exact ⟨values, hreads, (build_eq_ok_iff hdistinct hknown).1 hbuild⟩
    · rintro ⟨values, hreads, h⟩
      exact ⟨values, hreads, h.distinct, h.known, (build_eq_ok_iff h.distinct h.known).2 h⟩
  rw [Yaml.Value.asRecord, IsFrontMatter]
  cases hfront : front.untag with
  | mapping entries => simp [hentries]
  | null =>
    -- Without entries there is no name.
    simp only [hentries, List.forall₂_nil_left_iff, exists_eq_left]
    refine iff_of_false (fun h => ?_) (by simp)
    obtain ⟨v, hv, _⟩ := h.name
    cases hv
  | _ => simp [wrongType]

/-! ### The two routes -/

/-- The builder that gives a task whatever the run. -/
def always (task : Json) : Builder := fun _ => .ok (some (.json task))

/-- Describes an action under the name of a handle, and applies the handle to a builder. -/
def inTwoSteps (handle : String) (d : Description) (task : Json) : InPlace Bench Unit := do
  (Step.describeTask handle d).perform
  (Step.applyTask handle (always task)).perform

/-- The registry with an action that always has the same task. -/
def added (r : Registry) (d : Description) (task : Json) : Result Registry := do
  let d ← d.checked
  if (r.action? d.name).isSome then .error (.duplicateAction d.name)
  .ok { r with actions := r.actions ++ [{ d with recipe := .builder (always task) }] }

theorem run_register_of_ofText {text : String} {d : Description} {task : Json}
    (h : ofText text = .ok (d, task)) (origin : String) (r : Registry) :
    (register origin text).run r = whole r (added r d task) := by
  rw [run_register, outcome, h]
  rfl

/-- A handle stays on the bench when it cannot be applied, and so does the registry. -/
theorem run_inTwoSteps (r : Registry) (handles : List (String × Handle)) (handle : String)
    (d : Description) (task : Json) : ∃ handles',
      (inTwoSteps handle d task).run ⟨r, handles⟩ = match added r d task with
        | .ok r' => .ok () ⟨r', handles'⟩
        | .error e => .error e ⟨r, handles'⟩ := by
  rw [inTwoSteps, EStateM.run_bind, Step.run_perform, Step.outcome, TaskHandle.ofDescription, added]
  cases hd : d.checked with
  | error e => exact ⟨handles, rfl⟩
  | ok d' =>
    let b := Bench.withHandle ⟨r, handles⟩ handle (.task ⟨d', false⟩)
    have hhandle : b.handle? handle = some (.task ⟨d', false⟩) := by
      rw [Bench.handle?_withHandle, if_pos rfl]
    change ∃ handles', (Step.applyTask handle (always task)).perform.run b = _
    rw [Step.run_perform, Step.outcome, hhandle]
    by_cases haction : (r.action? d'.name).isSome
    · refine ⟨b.handles, ?_⟩
      have hduplicate : (TaskHandle.mk d' false).outcome b.registry (.builder (always task))
          = .error (.duplicateAction d'.name) := by
        simp [TaskHandle.outcome, b, haction]
      simp only [hduplicate]
      simp [haction, whole, b, Bench.withHandle]
    · have hadded : (TaskHandle.mk d' false).outcome b.registry (.builder (always task))
          = .ok ({ r with actions := r.actions ++ [{ d' with recipe := .builder (always task) }] },
            ⟨d', true⟩) := by
        simp [TaskHandle.outcome, b, haction]
      simp only [hadded]
      simp [haction, whole, Step.applied, Bench.withHandle]

/-- Both routes end in the same way. -/
theorem register_agrees_inTwoSteps {text : String} {d : Description} {task : Json}
    (h : ofText text = .ok (d, task)) (origin : String) (r : Registry)
    (handles : List (String × Handle)) (handle : String) :
    (register origin text).result r
        = Bench.registry <$> (inTwoSteps handle d task).result ⟨r, handles⟩
      ∧ (register origin text).leaves r
        = ((inTwoSteps handle d task).leaves ⟨r, handles⟩).registry := by
  obtain ⟨handles', htwo⟩ := run_inTwoSteps r handles handle d task
  have hone := run_register_of_ofText h origin r
  cases hadded : added r d task with
  | error e =>
    rw [hadded] at hone htwo
    simp [result, leaves, hone, htwo, whole]
  | ok r' =>
    rw [hadded] at hone htwo
    simp [result, leaves, hone, htwo, whole]

theorem exists_action_of_added {r r' : Registry} {d : Description} {task : Json}
    (h : added r d task = .ok r') :
    ∃ a : Action, d.checked = .ok a.toDescription
      ∧ r' = { r with actions := r.actions ++ [a] }
      ∧ ∀ ctx, a.task ctx = .ok (if task.isEmptyTask then none else some task) := by
  rw [added] at h
  obtain ⟨d', hd, h⟩ := Result.bind_eq_ok_iff.1 h
  by_cases haction : (r.action? d'.name).isSome
  · simp [haction] at h
  · simp [haction] at h
    refine ⟨{ d' with recipe := .builder (always task) }, hd, h.symm, fun ctx => ?_⟩
    cases hempty : task.isEmptyTask <;>
      simp [Action.task, Action.draft, always, Draft.toJson?, Option.filter, hempty]

/-- **What a declaration registers.** A text that does not read changes nothing; one that reads
registers like a description and then its template. -/
theorem registers_as_in_two_steps (r : Registry) (origin text : String)
    (documents : List Yaml.Value) (h : Yaml.Value.ofText? text = some documents) :
    (documents.length ≠ 2 → (register origin text).run r
        = .error (.malformedSource origin (.documentCount documents.length)) r)
    ∧ ∀ front template, documents = [front, template] →
      ((¬∃ d, IsFrontMatter front d) → ∃ failure, front.asRecord record = .error failure
          ∧ (register origin text).run r
            = .error (.malformedSource origin (.frontMatter failure)) r)
      ∧ ∀ d, IsFrontMatter front d →
        (∀ failure, template.toJson = .error failure → (register origin text).run r
          = .error (.malformedSource origin (.template failure)) r)
        ∧ ∀ task, template.toJson = .ok task →
          (∀ handles handle,
            (register origin text).result r
                = Bench.registry <$> (inTwoSteps handle d task).result ⟨r, handles⟩
            ∧ (register origin text).leaves r
                = ((inTwoSteps handle d task).leaves ⟨r, handles⟩).registry)
          ∧ ∀ r', (register origin text).run r = .ok () r' →
            ∃ a : Action, d.checked = .ok a.toDescription
              ∧ r' = { r with actions := r.actions ++ [a] }
              ∧ ∀ ctx, a.task ctx = .ok (if task.isEmptyTask then none else some task) := by
  have hread : ofText text = ofDocuments documents := by rw [ofText, h]
  have hfails : ∀ fault, ofDocuments documents = .error fault →
      (register origin text).run r = .error (.malformedSource origin fault) r := by
    intro fault hfault
    rw [run_register, outcome, hread, hfault]
    rfl
  constructor
  · intro hcount
    apply hfails
    rw [ofDocuments]
    intro front template htwo
    simp [htwo] at hcount
  · rintro front template rfl
    constructor
    · intro hnone
      cases hfront : front.asRecord record with
      | ok d => exact absurd ⟨d, asRecord_eq_ok_iff.1 hfront⟩ hnone
      | error failure =>
        refine ⟨failure, rfl, ?_⟩
        apply hfails
        simp [ofDocuments, hfront]
    · intro d hd
      have hfront := asRecord_eq_ok_iff.2 hd
      constructor
      · intro failure htemplate
        apply hfails
        simp [ofDocuments, hfront, htemplate]
      · intro task htemplate
        have htext : ofText text = .ok (d, task) := by
          simp [hread, ofDocuments, hfront, htemplate]
        refine ⟨fun handles handle => register_agrees_inTwoSteps htext origin r handles handle, ?_⟩
        intro r' hrun
        rw [run_register_of_ofText htext] at hrun
        exact exists_action_of_added (eq_ok_of_whole_eq_ok hrun)

/-- A text of front-matter and a template, which is the task whatever the run. -/
theorem template_is_task_everywhere :
    let text := "name: n\ntitle: t\ndescription: d\norder: 1\n---\nk: v\n"
    ∃ documents a, Yaml.Value.ofText? text = some documents
      ∧ (register "n.yml" text).run .empty = .ok () ⟨[a], .empty⟩
      ∧ ∀ ctx, a.task ctx = .ok (some (.object [("k", .string "v")])) := by
  intro text
  have hvalues : (Yaml.Value.ofText? text).map (List.map fun v => v.toJson.toOption) = some [
      some (.object [("description", .string "d"), ("name", .string "n"),
        ("order", .number (.integer 1)), ("title", .string "t")]),
      some (.object [("k", .string "v")])] := by
    decide +kernel
  have hregisters : ((register "n.yml" text).result .empty).toOption.isSome = true := by
    decide +kernel
  obtain ⟨documents, hdocuments, htwo⟩ := Option.map_eq_some_iff.1 hvalues
  obtain ⟨front, rest, rfl, _, hrest⟩ := List.map_eq_cons_iff.1 htwo
  obtain ⟨template, rest, rfl, htemplate, hnil⟩ := List.map_eq_cons_iff.1 hrest
  obtain rfl := List.map_eq_nil_iff.1 hnil
  obtain ⟨r', hresult⟩ : ∃ r', (register "n.yml" text).run .empty = .ok () r' := by
    cases hrun : (register "n.yml" text).run .empty with
    | ok _ r' => exact ⟨r', rfl⟩
    | error e r' => simp [result, hrun, Except.toOption] at hregisters
  obtain ⟨hfront, htask⟩ :=
    (registers_as_in_two_steps .empty "n.yml" text _ hdocuments).2 front template rfl
  obtain ⟨d, hd⟩ : ∃ d, IsFrontMatter front d := by
    by_contra hnone
    obtain ⟨_, _, hrun⟩ := hfront hnone
    cases hresult.symm.trans hrun
  obtain ⟨a, _, rfl, hctx⟩ :=
    ((htask d hd).2 _ (Result.toOption_eq_some_iff.1 htemplate)).2 r' hresult
  exact ⟨_, a, hdocuments, hresult, hctx⟩

end ActionRegistry.Declarative
