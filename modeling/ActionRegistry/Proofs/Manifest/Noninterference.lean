import ActionRegistry.Proofs.Registration.Step
import ActionRegistry.Proofs.Trigger.Dispatch

/-!
# What a manifest takes from the parameters

The task of a callback reads seven texts of the parameters, in a fixed order, and a declared task
reads nothing. So two runs whose parameters have the same seven texts get the same tasks, or the
same error. This is a statement about two runs, and it is proved by taking both through one
computation side by side: each step gives the same to both, as long as the steps after it do.

An error may be looked at as a whole or only in part, such as by its wording. What is seen of it is
a function on errors here, the same for the texts that go in and for the tasks that come out.
-/

namespace ActionRegistry

variable {ε : Type} {view : Error → ε}

/-! ### Outcomes that look alike -/

namespace Result

variable {α β : Type}

/-- Outcomes with the same value, or with errors of which the same is seen. -/
def Alike (view : Error → ε) (x y : Result α) : Prop := x.mapError view = y.mapError view

theorem Alike.refl (x : Result α) : Alike view x x := rfl

theorem alike_id_iff {x y : Result α} : Alike id x y ↔ x = y := by
  cases x <;> cases y <;> simp [Alike]

theorem Alike.bind {x y : Result α} {f g : α → Result β} (h : Alike view x y)
    (hnext : ∀ a, Alike view (f a) (g a)) : Alike view (x >>= f) (y >>= g) := by
  cases x with
  | error e =>
    cases y with
    | error e' => simpa [Alike] using h
    | ok b => simp [Alike] at h
  | ok a =>
    cases y with
    | error e' => simp [Alike] at h
    | ok b =>
      obtain rfl : a = b := by simpa [Alike] using h
      exact hnext a

theorem Alike.map {x y : Result α} (h : Alike view x y) (f : α → β) :
    Alike view (f <$> x) (f <$> y) := by
  cases x <;> cases y <;> simp_all [Alike]

end Result

open Result

/-! ### Parameters that look alike -/

namespace Parameters

/-- Parameters with the same texts under the required keys. -/
def Alike (view : Error → ε) (p p' : Parameters) : Prop :=
  ∀ key ∈ requiredKeys, Result.Alike view (p.text key) (p'.text key)

/-- A condition on parameters that reads the texts of the required keys and nothing else. -/
def ReadsTexts (view : Error → ε) (condition : Parameters → Bool) : Prop :=
  ∀ p p', Alike view p p' → condition p = condition p'

theorem ReadsTexts.whole {condition : Parameters → Bool} (h : ReadsTexts view condition) :
    ReadsTexts id condition := by
  intro p p' halike
  refine h p p' fun key hkey => ?_
  rw [alike_id_iff.1 (halike key hkey)]
  exact .refl _

theorem text_congr {p p' : Parameters} {key : String} (h : p.get? key = p'.get? key) :
    p.text key = p'.text key := by
  rw [text, text, h]

/-- Parameters with the same values under the required keys look alike, whatever else they hold. -/
theorem alike_of_get? {p p' : Parameters} (h : ∀ key ∈ requiredKeys, p.get? key = p'.get? key) :
    Alike view p p' := by
  intro key hkey
  rw [text_congr (h key hkey)]
  exact .refl _

theorem alike_of_number {p p' : Parameters} {key : String} {n : Number}
    (hn : p.get? key = some (.number n)) (hp' : p'.values = p.values.insert key (.string n.text)) :
    Alike view p p' := by
  have hget : ∀ k, p'.get? k = if k = key then some (.string n.text) else p.get? k := by
    intro k
    rw [get?, hp', SortedMap.get?_insert]
    rfl
  intro k _
  by_cases hk : k = key
  -- Under the key itself the values differ, and only their texts are the same.
  · have htext : p.text k = .ok n.text := by rw [hk, text, hn]
    have htext' : p'.text k = .ok n.text := by rw [text, hget, if_pos hk]
    rw [htext, htext']
    exact .refl _
  · have hsame : p.get? k = p'.get? k := by rw [hget, if_neg hk]
    rw [text_congr hsame]
    exact .refl _

end Parameters

/-! ### One action -/

def BuildContext.withParameters (ctx : BuildContext) (p : Parameters) : BuildContext :=
  { ctx with parameters := p }

@[simp] theorem BuildContext.parameters_withParameters (ctx : BuildContext) (p : Parameters) :
    (ctx.withParameters p).parameters = p := rfl

section Alike

variable {ctx : BuildContext} {p p' : Parameters}

/-- Of the parameters, the inputs of a task are texts under required keys. -/
theorem CallbackTask.alike_inputs (h : p.Alike view p') :
    Result.Alike view (inputs (ctx.withParameters p)) (inputs (ctx.withParameters p')) := by
  refine (h "head_repository" (by decide)).bind fun headRepository => ?_
  refine (Alike.refl _).bind fun scope => ?_
  refine (h "head_rev" (by decide)).bind fun headRev => ?_
  refine (h "level" (by decide)).bind fun level => ?_
  refine (h "project" (by decide)).bind fun project => ?_
  refine (h "pushlog_id" (by decide)).bind fun pushlogId => ?_
  refine (Alike.refl _).bind fun image => ?_
  refine (h "owner" (by decide)).bind fun owner => ?_
  refine (h "head_ref" (by decide)).bind fun headRef => ?_
  exact .refl _

theorem CallbackTask.alike_ofSpec (spec : Spec) (h : p.Alike view p') :
    Result.Alike view (ofSpec spec (ctx.withParameters p))
      (ofSpec spec (ctx.withParameters p')) :=
  (alike_inputs h).map (ofInputs spec ctx)

namespace Action

/-- An action is declared, so that its task is the same for every run, or it runs a callback and is
available by the texts of the required keys. -/
inductive ReadsTexts (view : Error → ε) (a : Action) : Prop where
  | declared {task : Json} (hrecipe : a.recipe = .builder fun _ => .ok (some (.json task))) :
      ReadsTexts view a
  | callback {spec : CallbackTask.Spec} {isAvailable : Parameters → Bool}
      (hrecipe : a.recipe = .callback spec isAvailable)
      (havailable : Parameters.ReadsTexts view isAvailable) : ReadsTexts view a

theorem ReadsTexts.whole {a : Action} (h : a.ReadsTexts view) : a.ReadsTexts id := by
  cases h with
  | declared hrecipe => exact .declared hrecipe
  | callback hrecipe havailable => exact .callback hrecipe havailable.whole

theorem ReadsTexts.alike_draft {a : Action} (ha : a.ReadsTexts view) (h : p.Alike view p') :
    Result.Alike view (a.draft (ctx.withParameters p)) (a.draft (ctx.withParameters p')) := by
  cases ha with
  | declared hrecipe =>
    simp only [draft, hrecipe]
    exact .refl _
  | @callback spec isAvailable hrecipe havailable =>
    have hdraft : ∀ q, a.draft (ctx.withParameters q)
        = if isAvailable q then some <$> CallbackTask.ofSpec spec (ctx.withParameters q)
          else .ok none := by
      intro q
      rw [draft, hrecipe]
      rfl
    -- Both are available or neither is, so the same branch is taken on both sides.
    rw [hdraft, hdraft, havailable p p' h]
    split
    · exact (CallbackTask.alike_ofSpec spec h).map some
    · exact .refl _

theorem ReadsTexts.alike_task {a : Action} (ha : a.ReadsTexts view) (h : p.Alike view p') :
    Result.Alike view (a.task (ctx.withParameters p)) (a.task (ctx.withParameters p')) :=
  (ha.alike_draft h).map _

end Action

/-! ### All actions -/

theorem Manifest.alike_entriesOf {actions : List Action} (ha : ∀ a ∈ actions, a.ReadsTexts view)
    (h : p.Alike view p') :
    Result.Alike view (entriesOf (ctx.withParameters p) actions)
      (entriesOf (ctx.withParameters p') actions) := by
  induction actions with
  | nil => exact .refl _
  | cons a rest ih =>
    have hrest := ih fun b hb => ha b (List.mem_cons_of_mem a hb)
    refine ((ha a List.mem_cons_self).alike_task h).bind fun given => ?_
    cases given with
    | none => exact hrest
    | some task => exact hrest.map _

theorem Manifest.alike_ofRegistry {r : Registry} (hr : ∀ a ∈ r.actions, a.ReadsTexts view)
    (h : p.Alike view p') :
    Result.Alike view (ofRegistry r (ctx.withParameters p'))
      ((fun m => { m with parameters := p' }) <$> ofRegistry r (ctx.withParameters p)) := by
  have hsorted : ∀ a ∈ r.sortedActions, a.ReadsTexts view := fun a ha =>
    hr a (r.isStableSort_sortedActions.perm.subset ha)
  have hentries : Result.Alike view (entriesOf (ctx.withParameters p) r.sortedActions)
      (entriesOf (ctx.withParameters p') r.sortedActions) := alike_entriesOf hsorted h
  rw [ofRegistry, ofRegistry]
  cases hx : entriesOf (ctx.withParameters p) r.sortedActions <;>
    cases hy : entriesOf (ctx.withParameters p') r.sortedActions <;>
    simp_all [Result.Alike]

end Alike

/-! ### The registries that are meant

A script that applies no handle to a builder registers callbacks and declared tasks only. -/

/-- A step that applies no handle to a builder, and sets no condition that reads more than the texts
of the required keys. -/
def Step.ReadsTexts (view : Error → ε) : Step → Prop
  | describeCallback _ _ _ isAvailable => Parameters.ReadsTexts view isAvailable
  | configure _ (.availability isAvailable) => Parameters.ReadsTexts view isAvailable
  | applyTask _ _ => False
  | _ => True

/-- A bench after the steps of a script, those that fail included. -/
def Step.attemptAll (script : List Step) (b : Bench) : Bench :=
  script.foldl (fun b step => step.attempt b) b

/-- The actions of a bench read the texts of the required keys only, and so will those of its
handles. -/
structure Bench.ReadsTexts (view : Error → ε) (b : Bench) : Prop where
  actions : ∀ a ∈ b.registry.actions, a.ReadsTexts view
  handles : ∀ name handle, b.handle? name = some (.callback handle) →
    Parameters.ReadsTexts view handle.isAvailable

theorem CallbackHandle.readsTexts_set {h : CallbackHandle} {setting : Setting} {name : String}
    (hstep : (Step.configure name setting).ReadsTexts view)
    (hh : Parameters.ReadsTexts view h.isAvailable) :
    Parameters.ReadsTexts view (h.set setting).isAvailable := by
  cases setting with
  | availability isAvailable => exact hstep
  | order order => exact hh
  | context context => exact hh
  | schema schema => exact hh

namespace Bench.ReadsTexts

variable {b b' : Bench}

theorem withHandle (hb : b.ReadsTexts view) (name : String) {handle : Handle}
    (h : ∀ callback, handle = .callback callback →
      Parameters.ReadsTexts view callback.isAvailable) :
    (b.withHandle name handle).ReadsTexts view where
  actions := hb.actions
  handles k callback hk := by
    rw [Bench.handle?_withHandle] at hk
    by_cases hkn : k = name
    · rw [if_pos hkn] at hk
      exact h callback (Option.some.inj hk)
    · rw [if_neg hkn] at hk
      exact hb.handles k callback hk

theorem withAction (hb : b.ReadsTexts view) {r : Registry} {a : Action}
    (hr : r.actions = b.registry.actions ++ [a]) (ha : a.ReadsTexts view) :
    ReadsTexts view { b with registry := r } where
  actions c hc := by
    rw [hr, List.mem_append, List.mem_singleton] at hc
    rcases hc with hc | rfl
    · exact hb.actions c hc
    · exact ha
  handles := hb.handles

theorem step {step : Step} (hb : b.ReadsTexts view) (hstep : step.ReadsTexts view)
    (h : Step.Effect b step b') : b'.ReadsTexts view := by
  cases h with
  | nothing => exact hb
  | describeTask => exact hb.withHandle _ nofun
  | describeCallback =>
    refine hb.withHandle _ ?_
    rintro callback ⟨⟩
    exact hstep
  | configure setting hname =>
    refine hb.withHandle _ ?_
    rintro callback ⟨⟩
    exact CallbackHandle.readsTexts_set hstep (hb.handles _ _ hname)
  | applyTask => cases hstep
  | @applyCallback name f file handle s hname hs =>
    -- The action takes over the condition of the handle, and the handle keeps it.
    obtain ⟨_, callback, d, _, _, _, _, rfl⟩ := CallbackHandle.outcome_eq_ok hs
    have hhandle := hb.handles name handle hname
    refine (hb.withAction rfl (.callback rfl hhandle)).withHandle name ?_
    rintro applied ⟨⟩
    exact hhandle
  | declare hr =>
    obtain ⟨_, _, _, _, _, _, rfl⟩ := Declarative.outcome_eq_ok hr
    exact hb.withAction rfl (.declared rfl)

theorem attemptAll {script : List Step} (hscript : ∀ s ∈ script, s.ReadsTexts view)
    (hb : b.ReadsTexts view) : (Step.attemptAll script b).ReadsTexts view := by
  induction script generalizing b with
  | nil => exact hb
  | cons s rest ih =>
    have hs := hb.step (hscript s List.mem_cons_self) (s.effect_attempt b)
    exact ih (fun s' hs' => hscript s' (List.mem_cons_of_mem s hs')) hs

theorem empty : Bench.empty.ReadsTexts view := ⟨nofun, nofun⟩

end Bench.ReadsTexts

def Manifest.withParameters (p : Parameters) (m : Manifest) : Manifest := { m with parameters := p }

/-- **Of the parameters, a manifest depends on seven texts,** if its callbacks are available by
these texts and its other tasks are declared. -/
theorem manifest_depends_on_required_texts (view : Error → ε) {r : Registry}
    (hr : ∀ a ∈ r.actions, a.ReadsTexts view) (ctx : BuildContext) (p p' : Parameters) :
    let rendered (q : Parameters) := Manifest.ofRegistry r (ctx.withParameters q)
    (p.Alike view p' →
      Result.Alike view (rendered p') (Manifest.withParameters p' <$> rendered p))
    ∧ ((∀ key ∈ requiredKeys, p.get? key = p'.get? key) →
        rendered p' = Manifest.withParameters p' <$> rendered p)
    ∧ (∀ key n, p.get? key = some (.number n) →
        p'.values = p.values.insert key (.string n.text) →
        rendered p' = Manifest.withParameters p' <$> rendered p) := by
  intro rendered
  have hwhole : p.Alike id p' → rendered p' = Manifest.withParameters p' <$> rendered p :=
    fun h => alike_id_iff.1 (Manifest.alike_ofRegistry (fun a ha => (hr a ha).whole) h)
  refine ⟨Manifest.alike_ofRegistry hr, fun hget => ?_, fun key n hn hp' => ?_⟩
  · exact hwhole (Parameters.alike_of_get? hget)
  · exact hwhole (Parameters.alike_of_number hn hp')

/-- A callback for one project beside a declared task, for a level given as a number and as its
text. -/
theorem manifest_depends_on_text_of_level :
    let forProject (p : Parameters) : Bool := (p.project.mapError Error.message).toOption
      == some "project"
    let script := [
      Step.describeCallback "hook"
        ⟨"again", "Retry", "Runs it again.", 1, [], none⟩ "rt" forProject,
      .applyCallback "hook"
        ⟨"hooks::retry", fun _ modes => ⟨.ok (), modes, [], []⟩⟩ "src/hooks.rs",
      .declare "clean.yml" "name: clean\ntitle: t\ndescription: d\norder: 2\n---\na: b\n"]
    let r := (Step.attemptAll script .empty).registry
    let rendered (q : Parameters) := Manifest.ofRegistry r (BuildContext.sample.withParameters q)
    ∃ p p' : Parameters, p.get? "level" = some (.number (.integer 3))
      ∧ p'.get? "level" = some (.string "3")
      ∧ (rendered p).toOption.map (fun m => m.entries.map (·.name)) = some ["again", "clean"]
      ∧ rendered p' = Manifest.withParameters p' <$> rendered p := by
  intro forProject script r rendered
  have hforProject : Parameters.ReadsTexts Error.message forProject := by
    intro p p' h
    have hproject : p.project.mapError Error.message = p'.project.mapError Error.message :=
      h "project" (by decide)
    simp only [forProject, hproject]
  have hr : ∀ a ∈ r.actions, a.ReadsTexts Error.message := by
    refine (Bench.ReadsTexts.attemptAll (fun s hs => ?_) .empty).actions
    simp only [script, List.mem_cons, List.not_mem_nil, or_false] at hs
    rcases hs with rfl | rfl | rfl
    · exact hforProject
    · trivial
    · trivial
  let values := BuildContext.sample.parameters.values
  let p : Parameters := ⟨values.insert "level" (.number (.integer 3)), by decide +kernel⟩
  let p' : Parameters := ⟨p.values.insert "level" (.string "3"), by decide +kernel⟩
  have hn : p.get? "level" = some (.number (.integer 3)) := rfl
  obtain ⟨_, _, hnumber⟩ :=
    manifest_depends_on_required_texts Error.message hr BuildContext.sample p p'
  exact ⟨p, p', hn, rfl, by decide +kernel, hnumber "level" (.integer 3) hn rfl⟩

end ActionRegistry
