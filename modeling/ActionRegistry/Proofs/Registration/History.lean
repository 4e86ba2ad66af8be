import ActionRegistry.Proofs.Callback.Name
import ActionRegistry.Proofs.Registration.Description
import ActionRegistry.Proofs.Registration.Step

/-!
# A registry is its history

What a step registers is read off the registry before and after it: the action that was added, and
the function that the step came with. The registry that a script reaches is determined by the list
of these registrations. Its actions are theirs, in order, and its callbacks are their functions
under the names derived from them. All that is known of a reached registry follows from this and
from what one registration had to pass.
-/

namespace ActionRegistry

/-- An action that was registered, and the function that was registered with it. -/
structure Registration where
  action : Action
  function : Option Function

/-- The name derived from a function, with what it runs. -/
def Function.binding (f : Function) : Option String × Callback :=
  (CallbackName.ofTypeName? f.typeName, f.run)

/-- What the checks ensure of a registration. An action with a function has the task that runs it.
-/
structure Registration.IsSound (g : Registration) : Prop where
  checked : g.action.toDescription.IsChecked
  task : g.function = none → ∃ build, g.action.recipe = .builder build
  callback : ∀ f, g.function = some f → ∃ callback symbol file isAvailable,
    CallbackName.ofTypeName? f.typeName = some callback
    ∧ g.action.recipe = .callback
      (CallbackHandle.spec g.action.toDescription symbol callback file) isAvailable

/-- A registry with one registration more, for whose names it had room. -/
structure Registry.Admits (r : Registry) (g : Registration) (r' : Registry) : Prop where
  sound : g.IsSound
  fresh : r.action? g.action.name = none
  actions : r'.actions = r.actions ++ [g.action]
  plain : g.function = none → r'.callbacks = r.callbacks
  bound : ∀ f callback, g.function = some f → CallbackName.ofTypeName? f.typeName = some callback →
    r.callbacks.get? callback = none ∧ r'.callbacks = r.callbacks.insert callback f.run

namespace Step

def function? : Step → Option Function
  | applyCallback _ f _ => some f
  | _ => none

def registered (b : Bench) (step : Step) : List Registration :=
  ((step.attempt b).registry.actions.drop b.registry.actions.length).map (⟨·, step.function?⟩)

theorem registered_of_registry_eq {b : Bench} {step : Step}
    (h : (step.attempt b).registry = b.registry) : step.registered b = [] := by
  rw [registered, h, List.drop_length, List.map_nil]

theorem registered_of_admits {b : Bench} {step : Step} {g : Registration}
    (hfunction : g.function = step.function?)
    (h : b.registry.Admits g (step.attempt b).registry) : step.registered b = [g] := by
  rw [registered, h.actions, List.drop_left, List.map_cons, List.map_nil, ← hfunction]

end Step

/-- The benches that scripts reach from the empty one, each with what was registered on the way. -/
inductive Reached : Bench → List Registration → Prop where
  | empty : Reached .empty []
  | step {b : Bench} {past : List Registration} (h : Reached b past) (step : Step) :
      Reached (step.attempt b) (past ++ step.registered b)

/-! ### One step -/

/-- The task handles of a bench are checked. -/
def Bench.HandlesChecked (b : Bench) : Prop :=
  ∀ name handle, b.handle? name = some (.task handle) → handle.description.IsChecked

theorem TaskHandle.of_ofDescription {d : Description} {handle : TaskHandle}
    (h : ofDescription d = .ok handle) :
    handle.description.name = Text.trim d.name ∧ handle.isApplied = false
      ∧ handle.description.IsChecked := by
  rw [ofDescription] at h
  cases hd : d.checked with
  | error e => simp [hd] at h
  | ok d' =>
    simp only [hd, Result.ok_bind, Except.ok.injEq] at h
    subst h
    obtain ⟨rfl, hchecked⟩ := Description.checked_eq_ok hd
    exact ⟨rfl, rfl, hchecked⟩

theorem Bench.HandlesChecked.withHandle {b : Bench} (hb : b.HandlesChecked) (name : String)
    {handle : Handle} (h : ∀ task, handle = .task task → task.description.IsChecked) :
    (b.withHandle name handle).HandlesChecked := by
  intro k task hk
  rw [Bench.handle?_withHandle] at hk
  by_cases hkn : k = name
  · rw [if_pos hkn] at hk
    exact h task (Option.some.inj hk)
  · rw [if_neg hkn] at hk
    exact hb k task hk

theorem TaskHandle.admits_of_outcome {h : TaskHandle} {r : Registry} {build : Builder}
    {s : Registry × TaskHandle} (hchecked : h.description.IsChecked)
    (hs : h.outcome r (.builder build) = .ok s) :
    r.Admits ⟨{ h.description with recipe := .builder build }, none⟩ s.1
      ∧ s.2.description = h.description := by
  obtain ⟨_, hfresh, rfl⟩ := outcome_eq_ok hs
  refine ⟨⟨⟨hchecked, fun _ => ⟨build, rfl⟩, nofun⟩, hfresh, rfl, fun _ => rfl, nofun⟩, rfl⟩

theorem CallbackHandle.admits_of_outcome {h : CallbackHandle} {r : Registry} {f : Function}
    {file : String} {s : Registry × CallbackHandle} (hs : h.outcome r f file = .ok s) :
    ∃ a : Action, a.name = Text.trim h.description.name ∧ r.Admits ⟨a, some f⟩ s.1 := by
  obtain ⟨_, callback, d, hname, hfree, hd, hfresh, rfl⟩ := outcome_eq_ok hs
  obtain ⟨hd', hchecked⟩ := Description.checked_eq_ok hd
  have hname := CallbackName.ofTypeName_eq_ok_iff.1 hname
  refine ⟨_, by rw [hd'], ⟨hchecked, nofun, ?_⟩, hfresh, rfl, nofun, ?_⟩
  · rintro f' ⟨⟩
    exact ⟨callback, h.symbol, file, h.isAvailable, hname, rfl⟩
  · rintro f' callback' ⟨⟩ hname'
    cases hname.symm.trans hname'
    exact ⟨hfree, rfl⟩

theorem Declarative.admits_of_outcome {r r' : Registry} {origin text : String}
    (hr : outcome r origin text = .ok r') :
    ∃ (d : Description) (task : Json) (a : Action), ofText text = .ok (d, task)
      ∧ a.name = Text.trim d.name ∧ r.Admits ⟨a, none⟩ r' := by
  obtain ⟨d, d', task, htext, hd, hfresh, rfl⟩ := outcome_eq_ok hr
  obtain ⟨hd', hchecked⟩ := Description.checked_eq_ok hd
  exact ⟨d, task, _, htext, by rw [hd'],
    ⟨hchecked, fun _ => ⟨_, rfl⟩, nofun⟩, hfresh, rfl, fun _ => rfl, nofun⟩

/-- A step registers nothing and leaves the registry alone, or the registry admits what it
registers. -/
theorem Step.Effect.admits {b b' : Bench} {step : Step} (h : Effect b step b')
    (hb : b.HandlesChecked) :
    b'.HandlesChecked ∧ (b'.registry = b.registry
      ∨ ∃ g : Registration, g.function = step.function? ∧ b.registry.Admits g b'.registry) := by
  cases h with
  | nothing => exact ⟨hb, .inl rfl⟩
  | @describeTask name d handle hhandle =>
    refine ⟨hb.withHandle name ?_, .inl rfl⟩
    rintro task ⟨⟩
    exact (TaskHandle.of_ofDescription hhandle).2.2
  | describeCallback name => exact ⟨hb.withHandle name nofun, .inl rfl⟩
  | @configure name => exact ⟨hb.withHandle name nofun, .inl rfl⟩
  | @applyTask name build handle s hname hs =>
    have hchecked := hb name handle hname
    obtain ⟨hadmits, hsame⟩ := TaskHandle.admits_of_outcome hchecked hs
    refine ⟨Bench.HandlesChecked.withHandle hb name ?_, .inr ⟨_, rfl, hadmits⟩⟩
    rintro task ⟨⟩
    rw [hsame]
    exact hchecked
  | @applyCallback name f file handle s hname hs =>
    obtain ⟨a, _, hadmits⟩ := CallbackHandle.admits_of_outcome hs
    exact ⟨Bench.HandlesChecked.withHandle hb name nofun, .inr ⟨⟨a, some f⟩, rfl, hadmits⟩⟩
  | declare hr =>
    obtain ⟨_, _, a, _, _, hadmits⟩ := Declarative.admits_of_outcome hr
    exact ⟨hb, .inr ⟨⟨a, none⟩, rfl, hadmits⟩⟩

end ActionRegistry
