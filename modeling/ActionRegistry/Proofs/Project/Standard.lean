import ActionRegistry.Proofs.Project.Modes
import ActionRegistry.Proofs.Source.Independence
import ActionRegistry.Proofs.Source.Naming
import ActionRegistry.Proofs.Task.Config
import ActionRegistry.Proofs.Task.Inputs

/-!
# Projects with the standard sources

The standard sources load whatever the project, and give two actions. The one that runs a decision
task again has a fixed task, and it comes first. The other says hello and is available on the
project `try` alone, so nothing that is wrong with a run matters elsewhere.
-/

namespace ActionRegistry

/-! ### The declared action -/

namespace Standard

def retriggerTask : Json :=
  .object [("$merge", .array [
    .object [("$eval", .string "task")],
    .object [
      ("created", .object [("$fromNow", .string "")]),
      ("deadline", .object [("$fromNow", .string "1 day")]),
      ("expires", .object [("$fromNow", .string "1 year")]),
      ("routes", .array []),
      ("tags", .object [("kind", .string "decision-task"), ("retriggered", .string "true")]),
      ("taskGroupId", .object [("$eval", .string "ownTaskId")])]])]

def retriggerDescription : Description where
  name := "retrigger-decision"
  title := "Retrigger Decision Task"
  description := "Create a clone of the decision task with fresh task and task-group ids.\n"
    ++ "Use this when the decision task for a push needs to run again."
  order := 100
  context := [.ofList [("kind", "decision-task")]]
  schema := none

def retrigger : Action :=
  { retriggerDescription with recipe := .builder fun _ => .ok (some (.json retriggerTask)) }

def retriggerEntry : ManifestEntry := .ofAction retrigger retriggerTask

/-- The characters of the declaration, line by line. -/
def retriggerChars : List Char :=
  retriggerDecisionLines.flatMap fun line => line.toList ++ ['\n']

theorem toList_retriggerDecision : retriggerDecision.toList = retriggerChars := by
  rw [retriggerDecision, retriggerChars, String.toList_join, List.flatMap_map]
  simp only [String.toList_append]
  rfl

/-- What the characters of a text declare, with the description as it is registered. Lists of
characters evaluate much faster than texts that are put together. -/
def declared (cs : List Char) : Option (Description × Json) := do
  let tokens := Yaml.Token.ofText cs
  let documents ← (Yaml.Document.ofTokens (tokens.length + 1) true tokens).mapM fun d =>
    (Yaml.Value.ofDocument d).toOption
  let (description, task) ← (Declarative.ofDocuments documents).toOption
  let description ← description.checked.toOption
  some (description, task)

theorem declares_of_declared {text : String} {d : Description} {task : Json}
    (h : declared text.toList = some (d, task)) :
    ∃ description, Declarative.ofText text = .ok (description, task)
      ∧ description.checked = .ok d := by
  obtain ⟨documents, hdocuments, h⟩ := Option.bind_eq_some_iff.1 h
  obtain ⟨⟨description, task'⟩, hread, h⟩ := Result.toOption_bind_eq_some_iff.1 h
  obtain ⟨d', hchecked, h⟩ := Result.toOption_bind_eq_some_iff.1 h
  cases h
  refine ⟨description, ?_, hchecked⟩
  have htext : Yaml.Value.ofText? text = some documents := hdocuments
  rw [Declarative.ofText, htext]
  exact hread

theorem declared_retriggerChars :
    declared retriggerChars = some (retriggerDescription, retriggerTask) := by
  decide +kernel

theorem outcome_retrigger {r : Registry} (h : r.action? "retrigger-decision" = none)
    (origin : String) :
    Declarative.outcome r origin retriggerDecision
      = .ok { r with actions := r.actions ++ [retrigger] } := by
  obtain ⟨description, htext, hchecked⟩ :=
    declares_of_declared (toList_retriggerDecision ▸ declared_retriggerChars)
  have hname : r.action? retriggerDescription.name = none := h
  rw [Declarative.outcome, htext, Result.mapError_ok, Result.ok_bind]
  simp only [hchecked, Result.ok_bind, hname]
  rfl

end Standard

/-! ### The hello action -/

namespace Hello

def spec : CallbackTask.Spec :=
  CallbackHandle.spec description "hw" "hello_world_action" sourceFile

def action : Action := { description with recipe := .callback spec isAvailable }

theorem isAvailable_iff {p : Parameters} : isAvailable p = true ↔ p.project = .ok "try" := by
  rw [isAvailable]
  cases p.project <;> simp

theorem checked_description : description.checked = .ok description :=
  Result.toOption_eq_some_iff.1 (by decide +kernel)

theorem ofTypeName_function :
    CallbackName.ofTypeName function.typeName = .ok "hello_world_action" :=
  CallbackName.ofTypeName_eq_ok_iff.2 (by decide +kernel)

theorem exists_register : ∃ callbacks, register .empty = .ok ⟨[action], callbacks⟩ := by
  let handle : CallbackHandle := ⟨description, "hw", isAvailable, false⟩
  obtain ⟨s, hs⟩ := CallbackHandle.outcome_of_free (h := handle) (r := .empty) rfl (by decide)
    (by decide) ofTypeName_function rfl checked_description rfl sourceFile
  obtain ⟨_, callback, d, hcallback, _, hd, _, rfl⟩ := CallbackHandle.outcome_eq_ok hs
  cases ofTypeName_function.symm.trans hcallback
  cases checked_description.symm.trans hd
  have hresult := InPlace.result_of_whole
    (CallbackHandle.run_register .empty handle function sourceFile)
  rw [hs] at hresult
  exact ⟨_, by rw [register, hresult]; rfl⟩

end Hello

namespace Standard

theorem exists_load : ∃ callbacks,
    (Source.load sources).1 = .ok ⟨[Hello.action, retrigger], callbacks⟩ := by
  obtain ⟨callbacks, hhello⟩ := Hello.exists_register
  have hretrigger := outcome_retrigger (r := ⟨[Hello.action], callbacks⟩) rfl
  refine ⟨callbacks, Source.addAll_cons_eq_ok_iff.2 ⟨_, hhello, ?_⟩⟩
  refine Source.addAll_cons_eq_ok_iff.2
    ⟨_, (Source.addTo_declarative _ _ _).trans (hretrigger _), ?_⟩
  rw [Source.addAll]
  rfl

/-- The manifest of the standard actions: the fixed entry, and the one of the hello action where it
is available. -/
theorem ofRegistry_eq (callbacks : SortedMap Callback) (ctx : BuildContext) :
    Manifest.ofRegistry ⟨[Hello.action, retrigger], callbacks⟩ ctx =
      if Hello.isAvailable ctx.parameters then
        (fun task => ⟨1, ctx.parameters, [retriggerEntry, .ofAction Hello.action task]⟩)
          <$> CallbackTask.ofSpec Hello.spec ctx
      else .ok ⟨1, ctx.parameters, [retriggerEntry]⟩ := by
  have hsorted : Registry.sortedActions ⟨[Hello.action, retrigger], callbacks⟩
      = [retrigger, Hello.action] := rfl
  have hretrigger : retrigger.task ctx = .ok (some retriggerTask) := rfl
  rw [Manifest.ofRegistry, hsorted]
  simp only [Manifest.entriesOf, hretrigger]
  cases havailable : Hello.isAvailable ctx.parameters with
  | false =>
    rw [Hello.action.task_of_unavailable rfl havailable]
    rfl
  | true =>
    rw [Hello.action.task_of_available rfl havailable]
    cases CallbackTask.ofSpec Hello.spec ctx <;> rfl

end Standard

/-! ### Projects -/

theorem Project.inDirectory_of_load {fs : Files} {root : Path} {config : TaskConfig}
    (h : TaskConfig.load fs root = .ok config) : Project.inDirectory fs root
      = .ok (.ofSources Standard.sources config (Image.inProject fs root)) := by
  rw [inDirectory, h, Result.ok_bind]

/-- What a project with the standard sources renders, whatever was asked of it before. -/
theorem Project.IsOf.result_render_standard {p : Project} {config : TaskConfig}
    {images : ImageResolver} (h : p.IsOf Standard.sources config images) (values : Parameters)
    (taskGroupId : String) :
    (p.render values taskGroupId).result =
      if Hello.isAvailable values then
        (fun task => ⟨1, values, [Standard.retriggerEntry, .ofAction Hello.action task]⟩)
          <$> CallbackTask.ofSpec Hello.spec ⟨values, taskGroupId, config, images⟩
      else .ok ⟨1, values, [Standard.retriggerEntry]⟩ := by
  obtain ⟨callbacks, hload⟩ := Standard.exists_load
  have hresult : p.registry.result = .ok _ := h.catalog.result_read.trans hload
  rw [render, hresult, Result.ok_bind, context, h.config, h.images]
  exact Standard.ofRegistry_eq callbacks _

/-- **A project with the standard sources offers one action everywhere, and a second one on the
project `try`.** The entry of the first is fixed. -/
theorem standard_project_renders {fs : Files} {root : Path} {config : TaskConfig}
    (hconfig : TaskConfig.load fs root = .ok config) :
    ∃ project, Project.inDirectory fs root = .ok project
      ∧ ∀ (requests : List Project.Request) (values : Parameters) (taskGroupId : String),
        let result := ((project.after requests).render values taskGroupId).result
        let task := CallbackTask.ofSpec Hello.spec
          ⟨values, taskGroupId, config, Image.inProject fs root⟩
        (values.text "project" ≠ .ok "try" →
          result = .ok ⟨1, values, [Standard.retriggerEntry]⟩)
        ∧ (values.text "project" = .ok "try" →
          (∃ v, task = .ok v
            ∧ result = .ok ⟨1, values, [Standard.retriggerEntry, .ofAction Hello.action v]⟩)
          ∨ ∃ e, task = .error e ∧ result = .error e) := by
  let project := Project.ofSources Standard.sources config (Image.inProject fs root)
  refine ⟨project, Project.inDirectory_of_load hconfig, fun requests values taskGroupId => ?_⟩
  intro result task
  have hof : project.IsOf Standard.sources config (Image.inProject fs root) :=
    Project.isOf_ofSources _ _ _
  have hresult := (hof.after requests).result_render_standard values taskGroupId
  refine ⟨fun hother => hresult.trans (if_neg fun havailable => ?_), fun htry => ?_⟩
  · exact hother (Hello.isAvailable_iff.1 havailable)
  · have hmade : result = (fun v => ⟨1, values, [Standard.retriggerEntry,
        .ofAction Hello.action v]⟩) <$> task :=
      hresult.trans (if_pos (Hello.isAvailable_iff.2 htry))
    cases htask : task with
    | ok v => exact .inl ⟨v, rfl, by rw [hmade, htask]; rfl⟩
    | error e => exact .inr ⟨e, rfl, by rw [hmade, htask]; rfl⟩

/-- With an image of its own, a project has both actions on `try`, and one elsewhere. -/
theorem project_with_image_renders :
    let fs : Files := ⟨.ofEntries [
      (["taskcluster", "actions.yml"], .file "image: own\n".toUTF8),
      (["taskcluster", "docker", "REGISTRY"], .file "r\n".toUTF8),
      (["taskcluster", "docker", "own", "VERSION"], .file "1\n".toUTF8)], []⟩
    ∃ project, Project.inDirectory fs ⟨"."⟩ = .ok project
      ∧ (project.render BuildContext.sample.parameters "group").result
        = .ok ⟨1, BuildContext.sample.parameters, [Standard.retriggerEntry]⟩
      ∧ ∃ values task, values.text "project" = .ok "try"
        ∧ (project.render values "group").result
          = .ok ⟨1, values, [Standard.retriggerEntry, .ofAction Hello.action task]⟩
        ∧ task.at? ["payload", "image"] = some (.string "r/own:1") := by
  intro fs
  let config : TaskConfig := { TaskConfig.default with image := "own" }
  have hconfig : TaskConfig.load fs ⟨"."⟩ = .ok config :=
    Result.toOption_eq_some_iff.1 (by decide +kernel)
  let values : Parameters :=
    ⟨BuildContext.sample.parameters.values.insert "project" (.string "try"), by decide +kernel⟩
  have hmade : (CallbackTask.ofSpec Hello.spec
      ⟨values, "group", config, Image.inProject fs ⟨"."⟩⟩).toOption.bind
        (·.at? ["payload", "image"]) = some (.string "r/own:1") := by
    decide +kernel
  obtain ⟨task, htask, himage⟩ := Result.toOption_bind_eq_some_iff.1 hmade
  obtain ⟨project, hproject, hrender⟩ := standard_project_renders hconfig
  have hother : BuildContext.sample.parameters.text "project" ≠ .ok "try" := by
    rw [Ne, ← Result.toOption_eq_some_iff]
    decide +kernel
  refine ⟨project, hproject, (hrender [] BuildContext.sample.parameters "group").1 hother,
    values, task, rfl, ?_, himage⟩
  rcases (hrender [] values "group").2 rfl with ⟨v, hv, hresult⟩ | ⟨e, he, _⟩
  · cases htask.symm.trans hv
    exact hresult
  · cases htask.symm.trans he

end ActionRegistry
