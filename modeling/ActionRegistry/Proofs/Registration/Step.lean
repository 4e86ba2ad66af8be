import ActionRegistry.Proofs.Registration.Commit

/-!
# Steps take effect as a whole

A step works on a bench in place, and what it wrote before an error would stay. Since each way to
register takes effect as a whole, so does each step: a step that fails leaves the bench as it was.
-/

namespace ActionRegistry

open InPlace

namespace Bench

theorem lookup_setHandle (name k : String) (handle : Handle) (handles : List (String × Handle)) :
    (setHandle name handle handles).lookup k
      = if k = name then some handle else handles.lookup k := by
  induction handles with
  | nil => rw [setHandle, lookup_cons_eq_ite]
  | cons head rest ih =>
    obtain ⟨n, h⟩ := head
    rw [setHandle]
    by_cases hn : name = n
    · subst hn
      rw [if_pos rfl, lookup_cons_eq_ite, lookup_cons_eq_ite]
      by_cases hk : k = name <;> simp only [hk, if_true, if_false]
    · rw [if_neg hn, lookup_cons_eq_ite, lookup_cons_eq_ite, ih]
      by_cases hk : k = n
      · subst hk
        rw [if_pos rfl, if_neg (Ne.symm hn), if_pos rfl]
      · rw [if_neg hk, if_neg hk]

theorem setHandle_eq_self {name : String} {handle : Handle} {handles : List (String × Handle)}
    (h : handles.lookup name = some handle) : setHandle name handle handles = handles := by
  induction handles with
  | nil => cases h
  | cons head rest ih =>
    obtain ⟨n, old⟩ := head
    rw [lookup_cons_eq_ite] at h
    rw [setHandle]
    by_cases hn : name = n
    · rw [if_pos hn] at h
      cases h
      rw [if_pos hn, hn]
    · rw [if_neg hn] at h
      rw [if_neg hn, ih h]

@[simp] theorem registry_withHandle (b : Bench) (name : String) (handle : Handle) :
    (b.withHandle name handle).registry = b.registry := rfl

theorem handle?_withHandle (b : Bench) (name k : String) (handle : Handle) :
    (b.withHandle name handle).handle? k = if k = name then some handle else b.handle? k :=
  lookup_setHandle name k handle b.handles

theorem withHandle_eq_self {b : Bench} {name : String} {handle : Handle}
    (h : b.handle? name = some handle) : b.withHandle name handle = b := by
  rw [withHandle, setHandle_eq_self h]

end Bench

namespace Step

/-- The bench after a handle is applied, of which the registry and the handle are given. -/
def applied {α : Type} (b : Bench) (name : String) (wrap : α → Handle) (s : Registry × α) : Bench :=
  { b with registry := s.1 }.withHandle name (wrap s.2)

def outcome (b : Bench) : Step → Result Bench
  | describeTask name d => do
    let handle ← TaskHandle.ofDescription d
    .ok (b.withHandle name (.task handle))
  | describeCallback name d symbol isAvailable =>
    .ok (b.withHandle name (.callback ⟨d, symbol, isAvailable, false⟩))
  | configure name setting =>
    match b.handle? name with
    | some (.callback handle) => .ok (b.withHandle name (.callback (handle.set setting)))
    | _ => .ok b
  | applyTask name build =>
    match b.handle? name with
    | some (.task handle) => applied b name .task <$> handle.outcome b.registry (.builder build)
    | _ => .ok b
  | applyCallback name f file =>
    match b.handle? name with
    | some (.callback handle) => applied b name .callback <$> handle.outcome b.registry f file
    | _ => .ok b
  | declare origin text =>
    (fun registry => { b with registry }) <$> Declarative.outcome b.registry origin text

theorem run_applyHandle {α : Type} {b : Bench} {name : String} {wrap : α → Handle} {handle : α}
    {register : InPlace (Registry × α) Unit} {x : Result (Registry × α)}
    (hregister : register.run (b.registry, handle) = whole (b.registry, handle) x)
    (hhandle : b.handle? name = some (wrap handle)) :
    (applyHandle name wrap handle register).run b = whole b (applied b name wrap <$> x) := by
  refine run_within_whole (fun b : Bench => (b.registry, handle)) _ (t := b) hregister ?_
  exact Bench.withHandle_eq_self hhandle

theorem run_perform (b : Bench) (step : Step) : step.perform.run b = whole b (step.outcome b) := by
  cases step with
  | describeTask name d =>
    cases hd : TaskHandle.ofDescription d <;> simp [perform, outcome, whole, hd]
  | describeCallback name d symbol isAvailable => rfl
  | configure name setting =>
    cases hhandle : b.handle? name with
    | none => simp [perform, outcome, whole, hhandle]
    | some handle => cases handle <;> simp [perform, outcome, whole, hhandle]
  | applyTask name build =>
    cases hhandle : b.handle? name with
    | none => simp [perform, outcome, whole, hhandle]
    | some handle =>
      cases handle with
      | callback handle => simp [perform, outcome, whole, hhandle]
      | task handle =>
        simp only [perform, outcome, EStateM.run_bind, EStateM.run_get, hhandle]
        exact run_applyHandle (handle.run_register b.registry _) hhandle
  | applyCallback name f file =>
    cases hhandle : b.handle? name with
    | none => simp [perform, outcome, whole, hhandle]
    | some handle =>
      cases handle with
      | task handle => simp [perform, outcome, whole, hhandle]
      | callback handle =>
        simp only [perform, outcome, EStateM.run_bind, EStateM.run_get, hhandle]
        exact run_applyHandle (handle.run_register b.registry f file) hhandle
  | declare origin text =>
    exact run_within_whole Bench.registry _ (Declarative.run_register b.registry origin text) rfl

theorem run_eq_outcome (b : Bench) (step : Step) : step.run b = step.outcome b :=
  result_of_whole (step.run_perform b)

theorem attempt_of_outcome_ok {b b' : Bench} {step : Step} (h : step.outcome b = .ok b') :
    step.attempt b = b' := by
  have hrun := step.run_perform b
  rw [h] at hrun
  exact leaves_of_whole_ok hrun

theorem attempt_of_outcome_error {b : Bench} {step : Step} {e : Error}
    (h : step.outcome b = .error e) : step.attempt b = b := by
  have hrun := step.run_perform b
  rw [h] at hrun
  exact leaves_of_whole_error hrun

/-- What a step may do to a bench. A step does nothing when it fails, and when its handle is not
there or of the other sort. -/
inductive Effect (b : Bench) : Step → Bench → Prop where
  | nothing (step : Step) : Effect b step b
  | describeTask {name : String} {d : Description} {handle : TaskHandle}
      (hhandle : TaskHandle.ofDescription d = .ok handle) :
      Effect b (.describeTask name d) (b.withHandle name (.task handle))
  | describeCallback (name : String) (d : Description) (symbol : String)
      (isAvailable : Parameters → Bool) :
      Effect b (.describeCallback name d symbol isAvailable)
        (b.withHandle name (.callback ⟨d, symbol, isAvailable, false⟩))
  | configure {name : String} {handle : CallbackHandle} (setting : CallbackHandle.Setting)
      (hname : b.handle? name = some (.callback handle)) :
      Effect b (.configure name setting) (b.withHandle name (.callback (handle.set setting)))
  | applyTask {name : String} {build : Builder} {handle : TaskHandle} {s : Registry × TaskHandle}
      (hname : b.handle? name = some (.task handle))
      (hs : handle.outcome b.registry (.builder build) = .ok s) :
      Effect b (.applyTask name build) (applied b name .task s)
  | applyCallback {name : String} {f : Function} {file : String} {handle : CallbackHandle}
      {s : Registry × CallbackHandle} (hname : b.handle? name = some (.callback handle))
      (hs : handle.outcome b.registry f file = .ok s) :
      Effect b (.applyCallback name f file) (applied b name .callback s)
  | declare {origin text : String} {r : Registry}
      (hr : Declarative.outcome b.registry origin text = .ok r) :
      Effect b (.declare origin text) { b with registry := r }

theorem effect_of_outcome {b b' : Bench} {step : Step} (h : step.outcome b = .ok b') :
    Effect b step b' := by
  cases step with
  | describeTask name d =>
    cases hd : TaskHandle.ofDescription d with
    | error e => simp [outcome, hd] at h
    | ok handle =>
      simp only [outcome, hd, Result.ok_bind, Except.ok.injEq] at h
      exact h ▸ .describeTask hd
  | describeCallback name d symbol isAvailable =>
    cases h
    exact .describeCallback name d symbol isAvailable
  | configure name setting =>
    simp only [outcome] at h
    split at h <;> cases h
    · next hname => exact .configure setting hname
    · exact .nothing _
  | applyTask name build =>
    simp only [outcome] at h
    split at h
    · next handle hname =>
      cases hs : handle.outcome b.registry (.builder build) with
      | error e => simp [hs] at h
      | ok s =>
        simp only [hs, Result.map_ok, Except.ok.injEq] at h
        exact h ▸ .applyTask hname hs
    · cases h
      exact .nothing _
  | applyCallback name f file =>
    simp only [outcome] at h
    split at h
    · next handle hname =>
      cases hs : handle.outcome b.registry f file with
      | error e => simp [hs] at h
      | ok s =>
        simp only [hs, Result.map_ok, Except.ok.injEq] at h
        exact h ▸ .applyCallback hname hs
    · cases h
      exact .nothing _
  | declare origin text =>
    cases hr : Declarative.outcome b.registry origin text with
    | error e => simp [outcome, hr] at h
    | ok r =>
      simp only [outcome, hr, Result.map_ok, Except.ok.injEq] at h
      exact h ▸ .declare hr

theorem effect_attempt (b : Bench) (step : Step) : Effect b step (step.attempt b) := by
  cases h : step.outcome b with
  | error e =>
    rw [attempt_of_outcome_error h]
    exact .nothing step
  | ok b' =>
    rw [attempt_of_outcome_ok h]
    exact effect_of_outcome h

end Step

end ActionRegistry
