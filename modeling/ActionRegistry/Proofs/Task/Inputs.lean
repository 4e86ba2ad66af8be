import ActionRegistry.Proofs.Checks
import ActionRegistry.Proofs.Trigger.Dispatch

/-!
# What the task of a callback needs

The task of a callback takes nine values from its run, which are looked up one after the other. So
the task is made if all nine can be had, and the first that cannot tells its error. The availability
is asked before that, and the task that is made is no empty value.
-/

namespace ActionRegistry

/-- A value whose text can be asked for. -/
def Json.IsTextual : Json → Prop
  | .string _ => True
  | .number _ => True
  | _ => False

theorem Parameters.exists_text_iff {p : Parameters} {key : String} :
    (∃ s, p.text key = .ok s) ↔ ∃ v, p.get? key = some v ∧ v.IsTextual := by
  rw [text]
  cases p.get? key with
  | none => simp
  | some v => cases v <;> simp [Json.IsTextual]

namespace CallbackTask

/-- A value that a task takes from its run. -/
inductive Need where
  | text (key : String)
  /-- The scope of the repository. -/
  | scope
  | image
  deriving DecidableEq, Repr

/-- What is needed, in the order in which it is looked up. -/
def needs : List Need :=
  [.text "head_repository", .scope, .text "head_rev", .text "level", .text "project",
    .text "pushlog_id", .image, .text "owner", .text "head_ref"]

def Need.value (ctx : BuildContext) : Need → Result String
  | text key => ctx.parameters.text key
  | scope => ctx.parameters.text "head_repository" >>= Repository.scope
  | image => ctx.images ctx.config.image

/-- Looking values up one after the other, until one cannot be had. -/
def seek (ctx : BuildContext) : List Need → Result Unit
  | [] => .ok ()
  | n :: rest => do
    let _ ← n.value ctx
    seek ctx rest

/-- An error is that of the first value that cannot be had. -/
def FirstFault (ctx : BuildContext) (wanted : List Need) (e : Error) : Prop :=
  ∃ before n after, wanted = before ++ n :: after
    ∧ (∀ m ∈ before, ∃ s, m.value ctx = .ok s) ∧ n.value ctx = .error e

section Seek

variable {ctx : BuildContext} {wanted : List Need} {e : Error}

theorem seek_eq_forM :
    seek ctx wanted = wanted.forM fun n => (fun _ => ()) <$> n.value ctx := by
  induction wanted with
  | nil => rfl
  | cons n rest ih =>
    rw [seek, List.forM, ih]
    cases n.value ctx <;> rfl

theorem seek_eq_ok_iff : seek ctx wanted = .ok () ↔ ∀ n ∈ wanted, ∃ s, n.value ctx = .ok s := by
  simp only [seek_eq_forM, Result.forM_eq_ok_iff, Result.map_eq_ok_iff, and_true]

theorem seek_eq_error_iff : seek ctx wanted = .error e ↔ FirstFault ctx wanted e := by
  simp only [seek_eq_forM, Result.forM_eq_error_iff, Result.FailsFirst, FirstFault,
    Result.map_eq_ok_iff, Result.map_eq_error_iff, and_true]

/-- The inputs of a task are looked up in the order of the needs. -/
theorem seek_needs (ctx : BuildContext) : seek ctx needs = (fun _ => ()) <$> inputs ctx := by
  simp only [seek, needs, Need.value, inputs, Parameters.headRepository, map_bind]
  cases ctx.parameters.text "head_repository" with
  | error e => rfl
  | ok url => rfl

theorem ofSpec_eq_error_iff (spec : Spec) :
    ofSpec spec ctx = .error e ↔ FirstFault ctx needs e := by
  rw [← seek_eq_error_iff, seek_needs, ofSpec]
  cases inputs ctx <;> simp

theorem exists_ofSpec_iff (spec : Spec) :
    (∃ task, ofSpec spec ctx = .ok task) ↔ ∀ n ∈ needs, ∃ s, n.value ctx = .ok s := by
  rw [← seek_eq_ok_iff, seek_needs, ofSpec]
  cases inputs ctx <;> simp

/-- What is needed can be had if the required parameters are textual, the repository is recognized
and the image is resolved. -/
theorem forall_needs_iff : (∀ n ∈ needs, ∃ s, n.value ctx = .ok s) ↔
    (∀ key ∈ requiredKeys, ∃ v, ctx.parameters.get? key = some v ∧ v.IsTextual)
    ∧ (∃ url scope, ctx.parameters.text "head_repository" = .ok url
      ∧ Repository.scope url = .ok scope)
    ∧ ∃ image, ctx.images ctx.config.image = .ok image := by
  have hscope : (∃ s, Need.scope.value ctx = .ok s) ↔ ∃ url scope,
      ctx.parameters.text "head_repository" = .ok url ∧ Repository.scope url = .ok scope := by
    simp only [Need.value, Result.bind_eq_ok_iff]
    exact exists_comm
  simp only [← Parameters.exists_text_iff, ← hscope]
  simp only [needs, requiredKeys, List.forall_mem_cons]
  constructor
  · rintro ⟨hrepository, hscope, hrev, hlevel, hproject, hpushlog, himage, howner, href, _⟩
    exact ⟨⟨hrepository, hrev, href, hlevel, howner, hproject, hpushlog, nofun⟩, hscope, himage⟩
  · rintro ⟨⟨hrepository, hrev, href, hlevel, howner, hproject, hpushlog, _⟩, hscope, himage⟩
    exact ⟨hrepository, hscope, hrev, hlevel, hproject, hpushlog, himage, howner, href, nofun⟩

/-- A task that runs a callback is no empty value: it has a group. -/
theorem ofSpec_notMem_emptyTasks {spec : Spec} {task : Json} (h : ofSpec spec ctx = .ok task) :
    task ∉ emptyTasks := by
  obtain ⟨i, _, rfl⟩ := ofSpec_eq_ok_iff.1 h
  have hplace : ["taskGroupId"] ∈ groupPlaces := List.mem_cons_self
  have hgroup := at?_groupPlaces spec ctx i hplace
  have hnone : ∀ v ∈ emptyTasks, v.at? ["taskGroupId"] = none := by
    simp [emptyTasks, Json.at?_cons, Json.field?]
  intro hempty
  cases (hnone _ hempty).symm.trans hgroup

end Seek

end CallbackTask

/-! ### Actions that run callbacks -/

namespace Action

variable {a : Action} {ctx : BuildContext} {spec : CallbackTask.Spec}
  {isAvailable : Parameters → Bool}

theorem task_of_unavailable (hrecipe : a.recipe = .callback spec isAvailable)
    (h : isAvailable ctx.parameters = false) : a.task ctx = .ok none := by
  rw [task, draft_of_isIdle (.callback hrecipe h)]
  rfl

/-- An action that is available has the task that runs its callback, or the error of making it. -/
theorem task_of_available (hrecipe : a.recipe = .callback spec isAvailable)
    (h : isAvailable ctx.parameters = true) :
    a.task ctx = some <$> CallbackTask.ofSpec spec ctx := by
  cases htask : CallbackTask.ofSpec spec ctx with
  | error e => exact task_eq_error_iff.2 (.callback hrecipe h htask)
  | ok task =>
    have hempty := CallbackTask.ofSpec_notMem_emptyTasks htask
    exact task_eq_some_iff.2 ⟨.callback hrecipe h htask, hempty⟩

end Action

open CallbackTask in
/-- **The task of a callback is made of what its run has,** or the first value that cannot be had is
told. -/
theorem callback_task_is_made {f : Function} {file : String} {r r' : Registry}
    {h h' : CallbackHandle}
    (hregister : (CallbackHandle.register f file).run (r, h) = .ok () (r', h')) :
    ∃ a, r'.actions = r.actions ++ [a] ∧ ∀ ctx,
      (h.isAvailable ctx.parameters = false → a.task ctx = .ok none)
      ∧ (h.isAvailable ctx.parameters = true →
        ((∃ task, a.task ctx = .ok (some task)) ↔
          (∀ key ∈ requiredKeys, ∃ v, ctx.parameters.get? key = some v ∧ v.IsTextual)
          ∧ (∃ url scope, ctx.parameters.text "head_repository" = .ok url
            ∧ Repository.scope url = .ok scope)
          ∧ ∃ image, ctx.images ctx.config.image = .ok image)
        ∧ (∀ e, a.task ctx = .error e ↔ FirstFault ctx needs e)
        ∧ a.task ctx ≠ .ok none
        ∧ ∀ task, a.draft ctx = .ok (some task) → a.task ctx = .ok (some task)) := by
  rw [CallbackHandle.run_register] at hregister
  obtain ⟨_, callback, d, _, _, _, _, hs⟩ :=
    CallbackHandle.outcome_eq_ok (InPlace.eq_ok_of_whole_eq_ok hregister)
  obtain ⟨rfl, _⟩ := Prod.mk.inj hs
  let spec := CallbackHandle.spec d h.symbol callback file
  let a : Action := { d with recipe := .callback spec h.isAvailable }
  refine ⟨a, rfl, fun ctx => ⟨a.task_of_unavailable rfl, fun havailable => ?_⟩⟩
  have htask : a.task ctx = some <$> ofSpec spec ctx := a.task_of_available rfl havailable
  rw [htask, ← forall_needs_iff, ← exists_ofSpec_iff spec]
  simp only [← ofSpec_eq_error_iff spec]
  have hdraft : a.draft ctx = some <$> ofSpec spec ctx := by simp [Action.draft, a, havailable]
  rw [hdraft]
  cases ofSpec spec ctx <;> simp

/-- The task is made for a run that has it all. -/
theorem retry_task_is_made :
    let retry : Function := ⟨"hooks::retry", fun _ modes => ⟨.ok (), modes, [], []⟩⟩
    let h : CallbackHandle :=
      ⟨⟨"again", "Retry", "Runs it again.", 1, [], none⟩, "rt", fun _ => true, false⟩
    ∃ a r' h', (CallbackHandle.register retry "src/hooks.rs").run (.empty, h) = .ok () (r', h')
      ∧ r'.actions = [a] ∧ ∃ task, a.task .sample = .ok (some task) := by
  intro retry h
  have hok : ((CallbackHandle.register retry "src/hooks.rs").result (.empty, h)).isOk = true := by
    decide +kernel
  have htexts : ∀ key ∈ requiredKeys, (BuildContext.sample.parameters.text key).isOk = true := by
    decide +kernel
  have hscope : (BuildContext.sample.parameters.text "head_repository" >>= Repository.scope).isOk
      = true := by
    decide +kernel
  cases hregister : (CallbackHandle.register retry "src/hooks.rs").run (.empty, h) with
  | error e s =>
    rw [InPlace.result, hregister] at hok
    cases hok
  | ok u s =>
    obtain ⟨a, ha, hmade⟩ := callback_task_is_made hregister
    refine ⟨a, s.1, s.2, rfl, ha, ((hmade .sample).2 rfl).1.2 ⟨fun key hkey => ?_, ?_, _, rfl⟩⟩
    · exact Parameters.exists_text_iff.1 (Result.isOk_iff.1 (htexts key hkey))
    · obtain ⟨scope, hscope⟩ := Result.isOk_iff.1 hscope
      obtain ⟨url, hurl, hscope⟩ := Result.bind_eq_ok_iff.1 hscope
      exact ⟨url, scope, hurl, hscope⟩

end ActionRegistry
