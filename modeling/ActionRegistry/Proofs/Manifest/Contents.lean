import ActionRegistry.Action.Manifest
import ActionRegistry.Proofs.Checks
import ActionRegistry.Proofs.Manifest.Order

/-!
# What a manifest lists

An action yields a task for a run, or it has none, or it fails. The manifest goes through the
actions in their order. It lists those that yield a task which is not an empty value, and it stops
at the first that fails.
-/

namespace ActionRegistry

/-- The values that stand for no task. There are two zeros among the doubles. -/
def emptyTasks : List Json :=
  [.null, .bool false, .number (.integer 0), .number (.float ⟨0⟩),
    .number (.float ⟨0x8000000000000000⟩), .string "", .array [], .object []]

/-! ### One action -/

namespace Action

/-- An action yields a task for a run: its builder gives one that can be written as JSON, or it runs
a callback and is available. -/
inductive Yields (a : Action) (ctx : BuildContext) : Json → Prop where
  | builder {build : Builder} {draft : Draft} {task : Json} (hrecipe : a.recipe = .builder build)
      (hdraft : build ctx = .ok (some draft)) (htask : draft.toJson? = some task) :
      Yields a ctx task
  | callback {spec : CallbackTask.Spec} {isAvailable : Parameters → Bool} {task : Json}
      (hrecipe : a.recipe = .callback spec isAvailable)
      (havailable : isAvailable ctx.parameters = true)
      (htask : CallbackTask.ofSpec spec ctx = .ok task) : Yields a ctx task

/-- An action fails for a run: its builder does, or gives what cannot be written as JSON, or the
task that runs its callback cannot be made. -/
inductive Fails (a : Action) (ctx : BuildContext) : Error → Prop where
  | builder {build : Builder} {e : Error} (hrecipe : a.recipe = .builder build)
      (hdraft : build ctx = .error e) : Fails a ctx e
  | notJson {build : Builder} {draft : Draft} (hrecipe : a.recipe = .builder build)
      (hdraft : build ctx = .ok (some draft)) (htask : draft.toJson? = none) :
      Fails a ctx (.taskNotJson a.name)
  | callback {spec : CallbackTask.Spec} {isAvailable : Parameters → Bool} {e : Error}
      (hrecipe : a.recipe = .callback spec isAvailable)
      (havailable : isAvailable ctx.parameters = true)
      (htask : CallbackTask.ofSpec spec ctx = .error e) : Fails a ctx e

inductive IsIdle (a : Action) (ctx : BuildContext) : Prop where
  | builder {build : Builder} (hrecipe : a.recipe = .builder build)
      (hdraft : build ctx = .ok none) : IsIdle a ctx
  | callback {spec : CallbackTask.Spec} {isAvailable : Parameters → Bool}
      (hrecipe : a.recipe = .callback spec isAvailable)
      (havailable : isAvailable ctx.parameters = false) : IsIdle a ctx

variable {a : Action} {ctx : BuildContext}

theorem draft_of_yields {task : Json} (h : a.Yields ctx task) : a.draft ctx = .ok (some task) := by
  obtain ⟨hrecipe, hdraft, htask⟩ | ⟨hrecipe, havailable, htask⟩ := h
  · simp [draft, hrecipe, hdraft, htask]
  · simp [draft, hrecipe, havailable, htask]

theorem draft_of_fails {e : Error} (h : a.Fails ctx e) : a.draft ctx = .error e := by
  obtain ⟨hrecipe, hdraft⟩ | ⟨hrecipe, hdraft, htask⟩ | ⟨hrecipe, havailable, htask⟩ := h
  · simp [draft, hrecipe, hdraft]
  · simp [draft, hrecipe, hdraft, htask]
  · simp [draft, hrecipe, havailable, htask]

theorem draft_of_isIdle (h : a.IsIdle ctx) : a.draft ctx = .ok none := by
  obtain ⟨hrecipe, hdraft⟩ | ⟨hrecipe, havailable⟩ := h
  · simp [draft, hrecipe, hdraft]
  · simp [draft, hrecipe, havailable]

theorem yields_or_fails_or_isIdle (a : Action) (ctx : BuildContext) :
    (∃ task, a.Yields ctx task) ∨ (∃ e, a.Fails ctx e) ∨ a.IsIdle ctx := by
  cases hrecipe : a.recipe with
  | builder build =>
    cases hdraft : build ctx with
    | error e => exact .inr (.inl ⟨e, .builder hrecipe hdraft⟩)
    | ok given =>
      cases given with
      | none => exact .inr (.inr (.builder hrecipe hdraft))
      | some draft =>
        cases htask : draft.toJson? with
        | none => exact .inr (.inl ⟨_, .notJson hrecipe hdraft htask⟩)
        | some task => exact .inl ⟨task, .builder hrecipe hdraft htask⟩
  | callback spec isAvailable =>
    cases havailable : isAvailable ctx.parameters with
    | false => exact .inr (.inr (.callback hrecipe havailable))
    | true =>
      cases htask : CallbackTask.ofSpec spec ctx with
      | error e => exact .inr (.inl ⟨e, .callback hrecipe havailable htask⟩)
      | ok task => exact .inl ⟨task, .callback hrecipe havailable htask⟩

theorem draft_eq_some_iff {task : Json} : a.draft ctx = .ok (some task) ↔ a.Yields ctx task := by
  refine ⟨fun hdraft => ?_, draft_of_yields⟩
  rcases a.yields_or_fails_or_isIdle ctx with ⟨task', h⟩ | ⟨e, h⟩ | h
  · cases (draft_of_yields h).symm.trans hdraft
    exact h
  · cases (draft_of_fails h).symm.trans hdraft
  · cases (draft_of_isIdle h).symm.trans hdraft

theorem draft_eq_error_iff {e : Error} : a.draft ctx = .error e ↔ a.Fails ctx e := by
  refine ⟨fun hdraft => ?_, draft_of_fails⟩
  rcases a.yields_or_fails_or_isIdle ctx with ⟨task, h⟩ | ⟨e', h⟩ | h
  · cases (draft_of_yields h).symm.trans hdraft
  · cases (draft_of_fails h).symm.trans hdraft
    exact h
  · cases (draft_of_isIdle h).symm.trans hdraft

end Action

theorem Binary64.isZero_iff (x : Binary64) :
    x.isZero = true ↔ x = ⟨0⟩ ∨ x = ⟨0x8000000000000000⟩ := by
  obtain ⟨bits⟩ := x
  have hlt := bits.toNat_lt
  simp only [isZero, exponentField, fractionField, fractions, exponents, Bool.and_eq_true,
    beq_iff_eq, Binary64.mk.injEq, ← UInt64.toNat_inj, UInt64.reduceToNat]
  omega

theorem Json.isEmptyTask_iff (v : Json) : v.isEmptyTask = true ↔ v ∈ emptyTasks := by
  cases v with
  | number n => cases n <;> simp [isEmptyTask, emptyTasks, Number.isZero, Binary64.isZero_iff]
  | _ => simp [isEmptyTask, emptyTasks]

namespace Action

variable {a : Action} {ctx : BuildContext}

theorem task_eq_some_iff {task : Json} :
    a.task ctx = .ok (some task) ↔ a.Yields ctx task ∧ task ∉ emptyTasks := by
  rw [← draft_eq_some_iff, ← Json.isEmptyTask_iff, Action.task]
  cases a.draft ctx with
  | error e => simp
  | ok given =>
    rw [Result.map_ok, Except.ok.injEq, Except.ok.injEq, Option.filter_eq_some_iff]
    simp

theorem task_eq_error_iff {e : Error} : a.task ctx = .error e ↔ a.Fails ctx e := by
  rw [← draft_eq_error_iff, Action.task]
  cases a.draft ctx <;> simp

end Action

/-! ### All actions -/

/-- The entries that actions come to: one for each that yields a task which is not empty. -/
inductive Lists (ctx : BuildContext) : List Action → List ManifestEntry → Prop where
  | nil : Lists ctx [] []
  | skip {a : Action} {actions : List Action} {entries : List ManifestEntry}
      (hskip : ∀ task, a.Yields ctx task → task ∈ emptyTasks) (h : Lists ctx actions entries) :
      Lists ctx (a :: actions) entries
  | keep {a : Action} {task : Json} {actions : List Action} {entries : List ManifestEntry}
      (hyields : a.Yields ctx task) (htask : task ∉ emptyTasks) (h : Lists ctx actions entries) :
      Lists ctx (a :: actions)
        (⟨a.name, a.title, a.description, a.context, a.schema, task⟩ :: entries)

/-- Every entry of a manifest is that of an action which yields its task. -/
theorem Lists.exists_ofAction {ctx : BuildContext} {actions : List Action}
    {entries : List ManifestEntry} (h : Lists ctx actions entries) {e : ManifestEntry}
    (he : e ∈ entries) : ∃ a ∈ actions, e = .ofAction a e.task ∧ a.Yields ctx e.task := by
  induction h with
  | nil => cases he
  | skip _ _ ih =>
    obtain ⟨a, ha, hentry⟩ := ih he
    exact ⟨a, List.mem_cons_of_mem _ ha, hentry⟩
  | keep hyields _ _ ih =>
    rcases List.mem_cons.1 he with rfl | he
    · exact ⟨_, List.mem_cons_self, rfl, hyields⟩
    · obtain ⟨a, ha, hentry⟩ := ih he
      exact ⟨a, List.mem_cons_of_mem _ ha, hentry⟩

theorem Lists.exists_of_mem {ctx : BuildContext} {actions : List Action}
    {entries : List ManifestEntry} (h : Lists ctx actions entries) {e : ManifestEntry}
    (he : e ∈ entries) : ∃ a ∈ actions, e.name = a.name ∧ a.Yields ctx e.task := by
  obtain ⟨a, ha, hentry, hyields⟩ := h.exists_ofAction he
  exact ⟨a, ha, congrArg ManifestEntry.name hentry, hyields⟩

def FailsFirst (ctx : BuildContext) (actions : List Action) (e : Error) : Prop :=
  ∃ before a after, actions = before ++ a :: after
    ∧ (∀ b ∈ before, ∀ e, ¬ b.Fails ctx e) ∧ a.Fails ctx e

section FailsFirst

variable {a : Action} {actions : List Action} {ctx : BuildContext} {e : Error}

theorem failsFirst_cons_of_fails {e' : Error} (h : a.Fails ctx e') :
    FailsFirst ctx (a :: actions) e ↔ e' = e := by
  refine Result.failsFirst_cons_of_fault (fun hnone => hnone e' h) fun e => ⟨fun he => ?_, ?_⟩
  · cases (Action.draft_of_fails h).symm.trans (Action.draft_of_fails he)
    rfl
  · rintro rfl
    exact h

theorem failsFirst_cons (h : ∀ e, ¬ a.Fails ctx e) :
    FailsFirst ctx (a :: actions) e ↔ FailsFirst ctx actions e :=
  Result.failsFirst_cons_of_passes h h

theorem exists_failsFirst_iff :
    (∃ e, FailsFirst ctx actions e) ↔ ∃ a ∈ actions, ∃ e, a.Fails ctx e := by
  constructor
  · rintro ⟨e, before, a, after, rfl, _, ha⟩
    exact ⟨a, by simp, e, ha⟩
  · rintro ⟨a, ha, e, hfails⟩
    induction actions with
    | nil => cases ha
    | cons b rest ih =>
      rcases Classical.em (∃ e, b.Fails ctx e) with ⟨e', hb⟩ | hb
      · exact ⟨e', (failsFirst_cons_of_fails hb).2 rfl⟩
      · have hrest : a ∈ rest := by
          rcases List.mem_cons.1 ha with rfl | ha
          · exact absurd ⟨e, hfails⟩ hb
          · exact ha
        obtain ⟨e', he'⟩ := ih hrest
        exact ⟨e', (failsFirst_cons (not_exists.1 hb)).2 he'⟩

end FailsFirst

namespace Manifest

variable {ctx : BuildContext} {actions : List Action}

theorem lists_of_entriesOf {entries : List ManifestEntry}
    (h : entriesOf ctx actions = .ok entries) : Lists ctx actions entries := by
  induction actions generalizing entries with
  | nil =>
    cases h
    exact .nil
  | cons a rest ih =>
    rw [entriesOf] at h
    cases htask : a.task ctx with
    | error e => simp [htask] at h
    | ok given =>
      rw [htask, Result.ok_bind] at h
      cases given with
      | none =>
        refine .skip (fun task hyields => Classical.byContradiction fun hempty => ?_) (ih h)
        cases (Action.task_eq_some_iff.2 ⟨hyields, hempty⟩).symm.trans htask
      | some task =>
        cases hrest : entriesOf ctx rest with
        | error e => simp [hrest] at h
        | ok others =>
          simp only [hrest, Result.map_ok, Except.ok.injEq] at h
          obtain ⟨hyields, hempty⟩ := Action.task_eq_some_iff.1 htask
          exact h ▸ .keep hyields hempty (ih hrest)

theorem entriesOf_eq_error_iff {e : Error} :
    entriesOf ctx actions = .error e ↔ FailsFirst ctx actions e := by
  induction actions with
  | nil => simp [entriesOf, FailsFirst]
  | cons a rest ih =>
    rw [entriesOf]
    cases htask : a.task ctx with
    | error e' =>
      have hfails := Action.task_eq_error_iff.1 htask
      rw [failsFirst_cons_of_fails hfails, Result.error_bind, Except.error.injEq]
    | ok given =>
      have hgiven : ∀ e, ¬ a.Fails ctx e := by
        intro e hfails
        cases htask.symm.trans (Action.task_eq_error_iff.2 hfails)
      rw [failsFirst_cons hgiven, ← ih, Result.ok_bind]
      cases given with
      | none => rfl
      | some task => cases entriesOf ctx rest <;> simp

theorem exists_entriesOf_iff :
    (∃ entries, entriesOf ctx actions = .ok entries) ↔ ∀ a ∈ actions, ∀ e, ¬ a.Fails ctx e := by
  have hfails : (∃ e, entriesOf ctx actions = .error e) ↔ ∃ a ∈ actions, ∃ e, a.Fails ctx e := by
    simp only [entriesOf_eq_error_iff, exists_failsFirst_iff]
  cases hentries : entriesOf ctx actions with
  | ok entries => simpa [hentries] using hfails
  | error e => simpa [hentries] using hfails

theorem ofRegistry_eq_ok_iff {r : Registry} {m : Manifest} :
    ofRegistry r ctx = .ok m ↔ m.version = currentVersion ∧ m.parameters = ctx.parameters
      ∧ entriesOf ctx r.sortedActions = .ok m.entries := by
  rw [ofRegistry]
  obtain ⟨version, parameters, entries⟩ := m
  cases entriesOf ctx r.sortedActions with
  | error e => simp
  | ok found => simp [eq_comm]

theorem exists_ofRegistry_iff {r : Registry} :
    (∃ m, ofRegistry r ctx = .ok m) ↔ ∃ entries, entriesOf ctx r.sortedActions = .ok entries := by
  constructor
  · rintro ⟨m, hm⟩
    exact ⟨m.entries, (ofRegistry_eq_ok_iff.1 hm).2.2⟩
  · rintro ⟨entries, hentries⟩
    exact ⟨⟨currentVersion, ctx.parameters, entries⟩, ofRegistry_eq_ok_iff.2 ⟨rfl, rfl, hentries⟩⟩

theorem ofRegistry_eq_error_iff {r : Registry} {e : Error} :
    ofRegistry r ctx = .error e ↔ entriesOf ctx r.sortedActions = .error e := by
  rw [ofRegistry]
  cases entriesOf ctx r.sortedActions <;> simp

end Manifest

/-- **A manifest lists what is available, in order.** Rendering fails only if an action fails, with
the error of the first that does. -/
theorem manifest_lists_available (r : Registry) (ctx : BuildContext) :
    IsStableSort r.actions r.sortedActions
    ∧ ((∃ m, Manifest.ofRegistry r ctx = .ok m) ↔ ∀ a ∈ r.actions, ∀ e, ¬ a.Fails ctx e)
    ∧ (∀ m, Manifest.ofRegistry r ctx = .ok m →
        m.version = 1 ∧ m.parameters = ctx.parameters
        ∧ ∀ sorted, IsStableSort r.actions sorted → Lists ctx sorted m.entries)
    ∧ (∀ e sorted, IsStableSort r.actions sorted →
        (Manifest.ofRegistry r ctx = .error e ↔ FailsFirst ctx sorted e)) := by
  have hsort := r.isStableSort_sortedActions
  refine ⟨hsort, ?_, fun m hm => ?_, fun e sorted hsorted => ?_⟩
  · rw [Manifest.exists_ofRegistry_iff, Manifest.exists_entriesOf_iff]
    simp only [hsort.perm.mem_iff]
  · obtain ⟨hversion, hparameters, hentries⟩ := Manifest.ofRegistry_eq_ok_iff.1 hm
    refine ⟨hversion, hparameters, fun sorted hsorted => ?_⟩
    rw [hsorted.unique hsort]
    exact Manifest.lists_of_entriesOf hentries
  · rw [hsorted.unique hsort, Manifest.ofRegistry_eq_error_iff]
    exact Manifest.entriesOf_eq_error_iff

/-- Of two actions that fail, the one of the smaller order tells its error. -/
example (ctx : BuildContext) :
    let failing (name : String) (order : Int64) : Action :=
      ⟨⟨name, name, name, order, [], none⟩, .builder fun _ => .error (.missingParameter name)⟩
    Manifest.ofRegistry ⟨[failing "late" 2, failing "early" 1], .empty⟩ ctx
      = .error (.missingParameter "early") := rfl

end ActionRegistry
