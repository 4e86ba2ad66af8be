import ActionRegistry.Proofs.Manifest.Contents
import ActionRegistry.Proofs.Registration.Consistency
import ActionRegistry.Proofs.Trigger.CallbackTask
import ActionRegistry.Trigger.Run

/-!
# From a manifest back to the function

The task in a manifest carries the name of a callback, and the name leads back to the function that
was registered with the action. Both were written by one registration, and no later step rebinds a
name. The parameters that a manifest echoes are complete, because those it was rendered for are. So
an invocation that is read off a manifest reaches its function.
-/

namespace ActionRegistry

theorem Manifest.at?_parameters (m : Manifest) :
    m.toJson.at? ["variables", "parameters"] = some (.ofMap m.parameters.values) := by
  simp [Json.at?_cons, toJson, Json.field?, lookup_cons_eq_ite, Parameters.toJson]

theorem Run.ofInvocation_eq {r : Registry} {i : Invocation} {callback : Callback} {p : Parameters}
    (hcallback : r.callback? i.callback = some callback)
    (hp : Parameters.ofMap i.parameters = .ok p) (modes : Modes) :
    ofInvocation r i modes = ofCall callback i p (if i.isTest then .testing else modes)
      (if i.isTest then [testingEvent i] else []) := by
  simp only [ofInvocation, hcallback, hp]

/-- A callback that was called tells its own errors only. -/
theorem Run.result_ofCall_eq_error {callback : Callback} {i : Invocation} {p : Parameters}
    {modes : Modes} {log : List Log.Event} {e : Error}
    (h : (ofCall callback i p modes log).result = .error e) :
    ∃ reason, (callback (callOf i p) modes).result = .error reason
      ∧ e = .callbackFailed i.callback reason := by
  rw [ofCall] at h
  cases hresult : (callback (callOf i p) modes).result with
  | ok u => simp [hresult] at h
  | error reason =>
    simp only [hresult, Result.mapError_error, Except.error.injEq] at h
    exact ⟨reason, rfl, h.symm⟩

/-- The action of an entry that has the name of a registered function runs its callback. -/
theorem Registry.IsOf.ofSpec_of_mem {r : Registry} {past : List Registration} (h : r.IsOf past)
    {g : Registration} (hg : g ∈ past) {f : Function} (hf : g.function = some f) {callback : String}
    (hcallback : CallbackName.ofTypeName? f.typeName = some callback) {ctx : BuildContext}
    {m : Manifest} (hm : Manifest.ofRegistry r ctx = .ok m) {e : ManifestEntry}
    (he : e ∈ m.entries) (hname : e.name = g.action.name) :
    ∃ spec : CallbackTask.Spec, spec.callback = callback
      ∧ CallbackTask.ofSpec spec ctx = .ok e.task := by
  have hlists := Manifest.lists_of_entriesOf (Manifest.ofRegistry_eq_ok_iff.1 hm).2.2
  obtain ⟨a, ha, hentry, hyields⟩ := hlists.exists_of_mem he
  have ha : a ∈ r.actions := r.isStableSort_sortedActions.perm.subset ha
  have hgmem : g.action ∈ r.actions := h.actions ▸ List.mem_map_of_mem hg
  cases h.eq_of_name_eq ha hgmem (hentry.symm.trans hname)
  obtain ⟨callback', symbol, file, isAvailable, hcallback', hrecipe⟩ :=
    (h.sound g hg).callback f hf
  cases hcallback'.symm.trans hcallback
  cases hyields with
  | builder hbuilder => cases hrecipe.symm.trans hbuilder
  | callback hspec _ htask =>
    cases hrecipe.symm.trans hspec
    exact ⟨_, rfl, htask⟩

/-- **An entry of a manifest triggers the function it was registered with,** once, with the
parameters of the run; no error comes from elsewhere. -/
theorem manifest_entry_triggers_function {b : Bench} {past : List Registration}
    (h : Reached b past) {g : Registration} (hg : g ∈ past) {f : Function}
    (hf : g.function = some f) {ctx : BuildContext} {m : Manifest}
    (hm : Manifest.ofRegistry b.registry ctx = .ok m) {e : ManifestEntry} (he : e ∈ m.entries)
    (hname : e.name = g.action.name) :
    ∃ callback, CallbackName.ofTypeName f.typeName = .ok callback
      ∧ e.task.at? CallbackTask.callbackPlace = some (.string callback)
      ∧ callback ∈ b.registry.callbackNames
      ∧ b.registry.callback? callback = some f.run
      ∧ (∀ place ∈ CallbackTask.groupPlaces, e.task.at? place = some (.string ctx.taskGroupId))
      ∧ ∀ (i : Invocation) (modes : Modes), i.callback = callback →
          i.taskGroupId = ctx.taskGroupId →
          m.toJson.at? ["variables", "parameters"] = some (.ofMap i.parameters) →
          let seen := if i.isTest then Modes.testing else modes
          let outcome := f.run ⟨ctx.parameters, i.input, ctx.taskGroupId, i.taskId, i.task⟩ seen
          Run.ofInvocation b.registry i modes =
            { result := outcome.result.mapError (.callbackFailed callback)
              modes := outcome.modes
              log := (if i.isTest then [Run.testingEvent i] else [])
                ++ Run.callEvent i :: outcome.log
              submitted := outcome.submitted }
          ∧ ∀ e, (Run.ofInvocation b.registry i modes).result = .error e →
              ∃ reason, outcome.result = .error reason ∧ e = .callbackFailed callback reason := by
  have hregistry := h.isOf.2
  obtain ⟨callback, _, _, _, hcallback, _⟩ := (hregistry.sound g hg).callback f hf
  have hbound := hregistry.callback?_eq_some hg hf hcallback
  obtain ⟨spec, rfl, htask⟩ := hregistry.ofSpec_of_mem hg hf hcallback hm he hname
  obtain ⟨inputs, _, htask⟩ := CallbackTask.ofSpec_eq_ok_iff.1 htask
  refine ⟨spec.callback, CallbackName.ofTypeName_eq_ok_iff.2 hcallback,
    htask ▸ CallbackTask.at?_callbackPlace spec ctx inputs,
    (SortedMap.mem_keys_iff _).2 ⟨f.run, hbound⟩, hbound,
    fun place hplace => htask ▸ CallbackTask.at?_groupPlaces spec ctx inputs hplace, ?_⟩
  intro i modes hi hgroup hparameters seen outcome
  have hrun : Run.ofInvocation b.registry i modes
      = Run.ofCall f.run i ctx.parameters seen
          (if i.isTest then [Run.testingEvent i] else []) := by
    have hvalues : i.parameters = ctx.parameters.values := by
      rw [Manifest.at?_parameters, (Manifest.ofRegistry_eq_ok_iff.1 hm).2.1] at hparameters
      exact (Json.ofMap_inj.1 (Option.some.inj hparameters)).symm
    refine Run.ofInvocation_eq (hi ▸ hbound) ?_ modes
    rw [hvalues, Parameters.ofMap_values]
  have hcall : Run.callOf i ctx.parameters
      = ⟨ctx.parameters, i.input, ctx.taskGroupId, i.taskId, i.task⟩ := by
    rw [Run.callOf, hgroup]
  refine ⟨by rw [hrun, Run.ofCall, hcall, hi], fun e he => ?_⟩
  rw [hrun] at he
  obtain ⟨reason, hreason, he⟩ := Run.result_ofCall_eq_error he
  rw [hcall] at hreason
  exact ⟨reason, hreason, hi ▸ he⟩

/-- A context whose parameters are named after their keys, but for the repository. -/
def BuildContext.sample : BuildContext where
  parameters :=
    ⟨.ofList ((requiredKeys.map fun key => (key, .string key))
      ++ [("head_repository", .string "https://hg.mozilla.org/try")]), by decide +kernel⟩
  taskGroupId := "group"
  config := .default
  images _ := .ok "image"

/-- A test run of the one entry of a manifest. -/
theorem manifest_entry_triggers_retry :
    let retry : Function :=
      ⟨"hooks::retry<A>", fun call modes => ⟨.ok (), modes, [], [.string call.taskGroupId]⟩⟩
    let describe := Step.describeCallback "hook"
      ⟨"again", "Retry", "Runs it again.", 1, [], none⟩ "rt" fun _ => true
    let apply := Step.applyCallback "hook" retry "src/hooks.rs"
    let b := apply.attempt (describe.attempt .empty)
    let i : Invocation :=
      ⟨"group", none, none, none, "retry", BuildContext.sample.parameters.values, true⟩
    ∃ m, Manifest.ofRegistry b.registry .sample = .ok m
      ∧ (∃ e ∈ m.entries, e.task.at? CallbackTask.callbackPlace = some (.string "retry"))
      ∧ (Run.ofInvocation b.registry i .live).submitted = [.string "group"] := by
  intro retry describe apply b i
  have hnames : ((Manifest.ofRegistry b.registry .sample).toOption.map fun m =>
      m.entries.map (·.name)) = some ["again"] := by decide +kernel
  have hregistered : (apply.registered (describe.attempt .empty)).map (·.action.name)
      = ["again"] := by decide +kernel
  have hcallback : CallbackName.ofTypeName? retry.typeName = some "retry" := by decide +kernel
  obtain ⟨m, hm, hentries⟩ := Result.toOption_map_eq_some_iff.1 hnames
  obtain ⟨e, he, hename⟩ : ∃ e ∈ m.entries, e.name = "again" :=
    List.mem_map.1 (hentries ▸ List.mem_singleton_self "again")
  obtain ⟨g, hg, hgname⟩ : ∃ g ∈ apply.registered (describe.attempt .empty),
      g.action.name = "again" :=
    List.mem_map.1 (hregistered ▸ List.mem_singleton_self "again")
  have hfunction : g.function = some retry := by
    obtain ⟨a, _, rfl⟩ := List.mem_map.1 hg
    rfl
  have hreached := Reached.step (.step .empty describe) apply
  obtain ⟨callback, hname, hplace, _, _, _, hrun⟩ := manifest_entry_triggers_function hreached
    (List.mem_append_right _ hg) hfunction hm he (hename.trans hgname.symm)
  cases (CallbackName.ofTypeName_eq_ok_iff.1 hname).symm.trans hcallback
  have hparameters : m.toJson.at? ["variables", "parameters"] = some (.ofMap i.parameters) := by
    rw [Manifest.at?_parameters, (Manifest.ofRegistry_eq_ok_iff.1 hm).2.1]
  refine ⟨m, hm, ⟨e, he, hplace⟩, ?_⟩
  rw [(hrun i .live rfl rfl hparameters).1]
  rfl

end ActionRegistry
