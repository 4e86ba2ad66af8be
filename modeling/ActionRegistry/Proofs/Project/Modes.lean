import ActionRegistry.Project
import ActionRegistry.Proofs.Source.Catalog
import ActionRegistry.Proofs.Trigger.Calls

/-!
# The modes of a project

Both services of a project go into testing mode when a test finds its callback, and stay there until
the project is reset. What comes of the test does not matter, and neither do other requests, as long
as callbacks leave the modes alone. A project never changes its sources, its configuration or its
images, and what its catalog keeps is what the sources load. So the modes and what is kept are all
that a reset has to undo, and after it the project is as new.
-/

namespace ActionRegistry

/-! ### The modes of a run -/

def Callback.KeepsModes (callback : Callback) : Prop :=
  ∀ call modes, (callback call modes).modes = modes

namespace Run

variable {r : Registry} {i : Invocation} {modes : Modes}

theorem modes_of_unknown (hnone : r.callback? i.callback = none) :
    (ofInvocation r i modes).modes = modes := by
  simp only [ofInvocation, hnone, failed]

/-- A test that finds its callback puts the services in testing mode, whether or not its parameters
are complete and whether or not the callback fails. -/
theorem modes_of_keepsModes {callback : Callback}
    (hcallback : r.callback? i.callback = some callback) (hkeeps : callback.KeepsModes) :
    (ofInvocation r i modes).modes = if i.isTest then .testing else modes := by
  cases hp : Parameters.ofMap i.parameters with
  | error e => simp only [ofInvocation, hcallback, hp, failed]
  | ok p =>
    rw [ofInvocation_eq hcallback hp, ofCall]
    exact hkeeps _ _

end Run

namespace Project

/-! ### Requests -/

/-- What can be asked of a project. A manifest is rendered for a group that is told, also where a
new one is made up for it. -/
inductive Request where
  | registry
  | render (parameters : Parameters) (taskGroupId : String)
  | trigger (i : Invocation)
  | reset

inductive Reply where
  | registry (result : Result Registry) (log : List Log.Event)
  | manifest (result : Result Manifest) (log : List Log.Event)
  | run (run : Run)
  | done

def serve (p : Project) : Request → Reply × Project
  | .registry => (.registry p.registry.result p.registry.log, p.registry.project)
  | .render parameters taskGroupId =>
    let answer := p.render parameters taskGroupId
    (.manifest answer.result answer.log, answer.project)
  | .trigger i => (.run (p.trigger i).1, (p.trigger i).2)
  | .reset => (.done, p.reset)

def after (p : Project) (requests : List Request) : Project :=
  requests.foldl (fun p q => (p.serve q).2) p

def replies (p : Project) : List Request → List Reply
  | [] => []
  | q :: rest => (p.serve q).1 :: (p.serve q).2.replies rest

theorem after_concat (p : Project) (requests : List Request) (q : Request) :
    p.after (requests ++ [q]) = ((p.after requests).serve q).2 :=
  List.foldl_append

theorem replies_append (p : Project) (requests later : List Request) :
    p.replies (requests ++ later) = p.replies requests ++ (p.after requests).replies later := by
  induction requests generalizing p with
  | nil => rfl
  | cons q rest ih =>
    rw [List.cons_append, replies, ih, replies, List.cons_append]
    rfl

/-- A request triggers a test whose callback is registered by sources that load. -/
def Request.IsTest (sources : List Source) : Request → Prop
  | .trigger i => i.isTest = true
      ∧ ∃ r, (Source.load sources).1 = .ok r ∧ i.callback ∈ r.callbackNames
  | _ => False

/-- The callbacks that requests trigger leave the modes as they find them. -/
def KeepModes (sources : List Source) (requests : List Request) : Prop :=
  ∀ i, .trigger i ∈ requests → ∀ r callback, (Source.load sources).1 = .ok r →
    r.callback? i.callback = some callback → callback.KeepsModes

/-- A test found its callback, and there was no reset after it. -/
def Tested (sources : List Source) (past : List Request) : Prop :=
  Since (· = .reset) (Request.IsTest sources) past

/-! ### What requests keep -/

section IsOf

variable {p : Project} {sources : List Source} {config : TaskConfig} {images : ImageResolver}

/-- A project has sources, a configuration and images, and what its catalog keeps is what the
sources load. -/
structure IsOf (p : Project) (sources : List Source) (config : TaskConfig)
    (images : ImageResolver) : Prop where
  catalog : p.catalog.Holds sources
  config : p.config = config
  images : p.images = images

theorem isOf_ofSources (sources : List Source) (config : TaskConfig) (images : ImageResolver) :
    (ofSources sources config images).IsOf sources config images where
  catalog := Catalog.holds_ofSources sources
  config := rfl
  images := rfl

namespace IsOf

theorem reset_eq (h : p.IsOf sources config images) :
    p.reset = ofSources sources config images := by
  rw [reset, h.catalog.reset_eq, h.config, h.images, ofSources]

theorem registry (h : p.IsOf sources config images) :
    p.registry.project.IsOf sources config images where
  catalog := h.catalog.read
  config := h.config
  images := h.images

theorem trigger_of_load (h : p.IsOf sources config images) {r : Registry}
    (hload : (Source.load sources).1 = .ok r) (i : Invocation) :
    let run := Run.ofInvocation r i p.modes
    p.trigger i = ({ run with log := p.registry.log ++ run.log },
      { p.registry.project with modes := run.modes }) := by
  have hresult : p.registry.result = .ok r := h.catalog.result_read.trans hload
  simp only [trigger, hresult]

theorem trigger_of_error (h : p.IsOf sources config images) {e : Error}
    (he : (Source.load sources).1 = .error e) (i : Invocation) :
    p.trigger i = (.failed e p.modes p.registry.log, p.registry.project) := by
  have hresult : p.registry.result = .error e := h.catalog.result_read.trans he
  simp only [trigger, hresult]

theorem serve (h : p.IsOf sources config images) (q : Request) :
    (p.serve q).2.IsOf sources config images := by
  cases q with
  | registry => exact h.registry
  | render parameters taskGroupId => exact h.registry
  | reset =>
    have hreset : (p.serve .reset).2 = ofSources sources config images := h.reset_eq
    exact hreset ▸ isOf_ofSources sources config images
  | trigger i =>
    rw [Project.serve]
    cases hload : (Source.load sources).1 with
    | ok r =>
      rw [h.trigger_of_load hload]
      exact ⟨h.registry.catalog, h.registry.config, h.registry.images⟩
    | error e =>
      rw [h.trigger_of_error hload]
      exact h.registry

theorem modes_trigger_of_unknown (h : p.IsOf sources config images) {i : Invocation}
    (hunknown : ∀ r, (Source.load sources).1 = .ok r → i.callback ∉ r.callbackNames) :
    (p.trigger i).2.modes = p.modes := by
  cases hload : (Source.load sources).1 with
  | ok r =>
    have hnone := Registry.not_mem_callbackNames_iff.1 (hunknown r hload)
    rw [h.trigger_of_load hload]
    exact Run.modes_of_unknown hnone
  | error e =>
    rw [h.trigger_of_error hload]
    rfl

/-- Only a test that finds its callback and a reset change the modes. -/
theorem modes_serve (h : p.IsOf sources config images) {q : Request}
    (hkeep : KeepModes sources [q]) (hq : q ≠ .reset) :
    (q.IsTest sources → (p.serve q).2.modes = .testing)
      ∧ (¬ q.IsTest sources → (p.serve q).2.modes = p.modes) := by
  cases q with
  | registry => exact ⟨False.elim, fun _ => rfl⟩
  | render parameters taskGroupId => exact ⟨False.elim, fun _ => rfl⟩
  | reset => exact absurd rfl hq
  | trigger i =>
    by_cases hknown : ∃ r, (Source.load sources).1 = .ok r ∧ i.callback ∈ r.callbackNames
    · obtain ⟨r, hload, hname⟩ := hknown
      obtain ⟨callback, hcallback⟩ := Registry.mem_callbackNames_iff.1 hname
      have hmodes : (p.trigger i).2.modes = if i.isTest then .testing else p.modes := by
        rw [h.trigger_of_load hload]
        exact Run.modes_of_keepsModes hcallback
          (hkeep i (List.mem_singleton_self _) r callback hload hcallback)
      refine ⟨fun htest => hmodes.trans (if_pos htest.1), fun htest => hmodes.trans (if_neg ?_)⟩
      exact fun hi => htest ⟨hi, r, hload, hname⟩
    · refine ⟨fun htest => absurd htest.2 hknown, fun _ => h.modes_trigger_of_unknown ?_⟩
      exact fun r hload hname => hknown ⟨r, hload, hname⟩

end IsOf

theorem IsOf.after (h : p.IsOf sources config images) (requests : List Request) :
    (p.after requests).IsOf sources config images := by
  induction requests using List.reverseRecOn with
  | nil => exact h
  | append_singleton requests q ih => exact after_concat p requests q ▸ ih.serve q

theorem IsOf.modes_after (h : p.IsOf sources config images) (hlive : p.modes = .live)
    {requests : List Request} (hkeep : KeepModes sources requests) :
    (Tested sources requests → (p.after requests).modes = .testing)
      ∧ (¬ Tested sources requests → (p.after requests).modes = .live) := by
  induction requests using List.reverseRecOn with
  | nil => exact ⟨fun htested => absurd htested not_since_nil, fun _ => hlive⟩
  | append_singleton requests q ih =>
    have hpast : KeepModes sources requests := fun i hi =>
      hkeep i (List.mem_append_left [q] hi)
    have hlast : KeepModes sources [q] := fun i hi =>
      hkeep i (List.mem_append_right requests hi)
    rw [after_concat, Tested, since_concat_iff]
    by_cases hq : q = .reset
    -- A reset is no test, and no test is since then.
    · subst hq
      exact ⟨fun htested => htested.elim False.elim fun hold => absurd rfl hold.2, fun _ => rfl⟩
    · obtain ⟨htest, hother⟩ := (h.after requests).modes_serve hlast hq
      obtain ⟨htesting, hlive⟩ := ih hpast
      by_cases hqtest : q.IsTest sources
      · exact ⟨fun _ => htest hqtest, fun htested => absurd (.inl hqtest) htested⟩
      · rw [hother hqtest]
        exact ⟨fun htested => htesting (htested.resolve_left hqtest).1,
          fun htested => hlive fun hold => htested (.inr ⟨hold, hq⟩)⟩

end IsOf

end Project

/-- **The modes of a project follow its tests.** Testing starts with a test that finds its callback,
and ends with a reset. -/
theorem project_modes_follow_tests (sources : List Source) (earlier : List Catalog.Request)
    (config : TaskConfig) (images : ImageResolver) {requests : List Project.Request}
    (hkeep : Project.KeepModes sources requests) :
    let fresh := Project.ofSources sources config images
    let start := { fresh with catalog := fresh.catalog.after earlier }
    let p := start.after requests
    (p.modes.jobCreation = p.modes.orchestrationClient
      ∧ (p.modes.jobCreation = true ↔ Project.Tested sources requests))
    ∧ (∀ i, (∀ r, (Source.load sources).1 = .ok r → i.callback ∉ r.callbackNames) →
        (p.trigger i).2.modes = p.modes)
    ∧ (∀ i r, (Source.load sources).1 = .ok r →
        let run := Run.ofInvocation r i p.modes
        (p.trigger i).1 = { run with log := p.registry.log ++ run.log }
        ∧ (p.trigger i).2.modes = run.modes
        ∧ ∃ calls, Run.Makes r i p.modes calls
          ∧ (i.isTest = true → ∀ contact ∈ calls, contact.modes = .testing))
    ∧ p.reset = fresh
    ∧ ∀ later, start.replies (requests ++ .reset :: later)
        = start.replies requests ++ .done :: fresh.replies later := by
  intro fresh start p
  have hstart : start.IsOf sources config images := ⟨Catalog.holds_after sources earlier, rfl, rfl⟩
  have hof : p.IsOf sources config images := hstart.after requests
  obtain ⟨htesting, hlive⟩ := hstart.modes_after rfl hkeep
  refine ⟨?_, fun i hunknown => hof.modes_trigger_of_unknown hunknown, fun i r hload => ?_,
    hof.reset_eq, fun later => ?_⟩
  · by_cases htested : Project.Tested sources requests
    · rw [htesting htested]
      exact ⟨rfl, iff_of_true rfl htested⟩
    · rw [hlive htested]
      exact ⟨rfl, iff_of_false nofun htested⟩
  · obtain ⟨calls, hcalls⟩ := Run.exists_makes r i p.modes
    have htrigger := hof.trigger_of_load hload i
    exact ⟨congrArg Prod.fst htrigger, congrArg (·.2.modes) htrigger, calls, hcalls,
      hcalls.modes_of_isTest⟩
  · have hreset : (p.serve .reset).2 = fresh := hof.reset_eq
    rw [Project.replies_append, Project.replies, hreset]
    rfl

/-- A test whose parameters are rejected leaves both services in testing mode until the reset. -/
theorem project_modes_follow_rejected_test :
    let retry := Source.plugin "retry" (Step.runAll [
      .describeCallback "hook" ⟨"retry", "Retry", "Runs it again.", 1, [], none⟩ "rt" fun _ => true,
      .applyCallback "hook"
        ⟨"hooks::retry", fun _ modes => ⟨.ok (), modes, [], []⟩⟩ "src/hooks.rs"])
    let rejected : Invocation := ⟨"group", none, none, none, "retry", .empty, true⟩
    let start := Project.ofSources [retry] .default fun _ => .ok "image"
    let p := start.after [.trigger rejected]
    (p.trigger rejected).1.result = .error (.missingParameter "head_repository")
      ∧ p.modes.jobCreation = true ∧ p.modes.orchestrationClient = true ∧ p.reset = start := by
  intro retry rejected start p
  have hbound : ((Source.load [retry]).1.toOption.bind fun r => r.callback? "retry")
      = some fun _ modes => ⟨.ok (), modes, [], []⟩ := rfl
  obtain ⟨r, hload, hcallback⟩ := Result.toOption_bind_eq_some_iff.1 hbound
  have hkeep : Project.KeepModes [retry] [.trigger rejected] := by
    intro i hi r' callback hr' hcallback'
    cases List.mem_singleton.1 hi
    cases hload.symm.trans hr'
    cases hcallback.symm.trans hcallback'
    exact fun _ _ => rfl
  have htested : Project.Tested [retry] [.trigger rejected] :=
    ⟨[], _, [], rfl, ⟨rfl, r, hload, Registry.mem_callbackNames_iff.2 ⟨_, hcallback⟩⟩, nofun⟩
  obtain ⟨⟨hsame, hmodes⟩, _, htrigger, hreset, _⟩ :=
    project_modes_follow_tests [retry] [] .default (fun _ => .ok "image") hkeep
  have htesting : p.modes.jobCreation = true := hmodes.2 htested
  have hresult : (p.trigger rejected).1.result = (Run.ofInvocation r rejected p.modes).result :=
    congrArg Run.result (htrigger rejected r hload).1
  refine ⟨?_, htesting, hsame.symm.trans htesting, hreset⟩
  rw [hresult]
  simp only [Run.ofInvocation, rejected, hcallback]
  rfl

end ActionRegistry
