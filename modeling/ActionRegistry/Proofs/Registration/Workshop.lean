import ActionRegistry.Proofs.Registration.Step

/-!
# A handle is applied once

Several registries may be worked on in turn with the same handles. A handle that was applied is
marked, no step takes the mark away, and a marked handle registers nothing, in whichever registry.
So between two descriptions under its name a handle registers at most one action. Together with the
outcomes of registering this says what registration promises: a failure leaves no trace, and a
success adds to the end.
-/

namespace ActionRegistry

open InPlace

def Handle.isApplied : Handle → Bool
  | .task handle => handle.isApplied
  | .callback handle => handle.isApplied

namespace Step

/-- Whether a step puts a new handle under a name. -/
def makes (name : String) : Step → Bool
  | describeTask n d => n == name && (TaskHandle.ofDescription d).isOk
  | describeCallback n _ _ _ => n == name
  | _ => false

def appliesTo (name : String) : Step → Bool
  | applyTask n _ => n == name
  | applyCallback n _ _ => n == name
  | _ => false

def adds (b : Bench) (step : Step) : Bool :=
  b.registry.actions.length < (step.attempt b).registry.actions.length

end Step

/-- Registries, numbered, that share named handles. -/
structure Workshop where
  registries : Nat → Registry
  handles : List (String × Handle)

structure Visit where
  place : Nat
  step : Step

namespace Workshop

def bench (w : Workshop) (place : Nat) : Bench := ⟨w.registries place, w.handles⟩

/-- The workshop after a visit, whether its step fails or not. -/
def attempt (w : Workshop) (v : Visit) : Workshop :=
  let b := v.step.attempt (w.bench v.place)
  ⟨fun place => if place = v.place then b.registry else w.registries place, b.handles⟩

/-- How often visits apply the handle of a name with success. -/
def successes (name : String) : Workshop → List Visit → Nat
  | _, [] => 0
  | w, v :: rest =>
    (if v.step.appliesTo name && v.step.adds (w.bench v.place) then 1 else 0)
      + successes name (w.attempt v) rest

end Workshop

namespace Step

variable {b b' : Bench} {name : String} {handle : Handle} {step : Step}

theorem handle?_applied {α : Type} (b : Bench) (n : String) (wrap : α → Handle) (s : Registry × α) :
    (applied b n wrap s).handle? name = if name = n then some (wrap s.2) else b.handle? name :=
  Bench.handle?_withHandle _ n name (wrap s.2)

theorem ne_of_isApplied {n : String} {old : Handle} (hname : b.handle? name = some handle)
    (happ : handle.isApplied = true) (hold : b.handle? n = some old)
    (hfresh : old.isApplied = false) : name ≠ n := by
  rintro rfl
  rw [hold] at hname
  cases hname
  rw [hfresh] at happ
  cases happ

/-- A handle that is applied registers nothing, and stays applied under a name that no new handle
gets. -/
theorem Effect.of_isApplied (h : Effect b step b') (hname : b.handle? name = some handle)
    (happ : handle.isApplied = true) (hmakes : step.makes name = false) :
    (∃ handle', b'.handle? name = some handle' ∧ handle'.isApplied = true)
      ∧ (step.appliesTo name = true → b'.registry = b.registry) := by
  cases h with
  | nothing => exact ⟨⟨handle, hname, happ⟩, fun _ => rfl⟩
  | @describeTask n d new hnew =>
    have hne : name ≠ n := by
      rintro rfl
      simp [makes, hnew, Except.isOk, Except.toBool] at hmakes
    exact ⟨⟨handle, by rw [Bench.handle?_withHandle, if_neg hne, hname], happ⟩, fun _ => rfl⟩
  | describeCallback n d symbol isAvailable =>
    have hne : name ≠ n := by
      rintro rfl
      simp [makes] at hmakes
    exact ⟨⟨handle, by rw [Bench.handle?_withHandle, if_neg hne, hname], happ⟩, fun _ => rfl⟩
  | @configure n old setting hold =>
    refine ⟨?_, fun _ => rfl⟩
    by_cases hn : name = n
    · -- The handle itself is set, which leaves its mark.
      subst hn
      rw [hold] at hname
      cases hname
      refine ⟨.callback (old.set setting), by rw [Bench.handle?_withHandle, if_pos rfl], ?_⟩
      cases setting <;> exact happ
    · exact ⟨handle, by rw [Bench.handle?_withHandle, if_neg hn, hname], happ⟩
  | @applyTask n build old s hold hs =>
    obtain ⟨hfresh, _, rfl⟩ := TaskHandle.outcome_eq_ok hs
    have hne : name ≠ n := ne_of_isApplied hname happ hold hfresh
    refine ⟨⟨handle, by rw [handle?_applied, if_neg hne, hname], happ⟩, fun happlies => ?_⟩
    exact absurd (by simpa [appliesTo] using happlies) (Ne.symm hne)
  | @applyCallback n f file old s hold hs =>
    obtain ⟨hfresh, _⟩ := CallbackHandle.outcome_eq_ok hs
    have hne : name ≠ n := ne_of_isApplied hname happ hold hfresh
    refine ⟨⟨handle, by rw [handle?_applied, if_neg hne, hname], happ⟩, fun happlies => ?_⟩
    exact absurd (by simpa [appliesTo] using happlies) (Ne.symm hne)
  | declare hr => exact ⟨⟨handle, hname, happ⟩, fun happlies => by simp [appliesTo] at happlies⟩

theorem Effect.isApplied_of_adds (h : Effect b step b') (happlies : step.appliesTo name = true)
    (hadds : b'.registry ≠ b.registry) :
    ∃ handle, b'.handle? name = some handle ∧ handle.isApplied = true := by
  cases h with
  | nothing => exact absurd rfl hadds
  | describeTask => exact absurd rfl hadds
  | describeCallback => exact absurd rfl hadds
  | configure => exact absurd rfl hadds
  | @applyTask n build old s hold hs =>
    obtain ⟨_, _, rfl⟩ := TaskHandle.outcome_eq_ok hs
    have hn : n = name := by simpa [appliesTo] using happlies
    exact ⟨_, by rw [handle?_applied, if_pos hn.symm], rfl⟩
  | @applyCallback n f file old s hold hs =>
    obtain ⟨_, _, _, _, _, _, _, rfl⟩ := CallbackHandle.outcome_eq_ok hs
    have hn : n = name := by simpa [appliesTo] using happlies
    exact ⟨_, by rw [handle?_applied, if_pos hn.symm], rfl⟩
  | declare => simp [appliesTo] at happlies

theorem adds_eq_false_of_registry_eq (h : (step.attempt b).registry = b.registry) :
    step.adds b = false := by
  simp [adds, h]

theorem registry_ne_of_adds (h : step.adds b = true) : (step.attempt b).registry ≠ b.registry := by
  intro heq
  rw [adds_eq_false_of_registry_eq heq] at h
  cases h

end Step

namespace Workshop

theorem successes_of_isApplied {name : String} {visits : List Visit}
    (hmakes : ∀ v ∈ visits, v.step.makes name = false) {w : Workshop} {handle : Handle}
    (hname : w.handles.lookup name = some handle) (happ : handle.isApplied = true) :
    w.successes name visits = 0 := by
  induction visits generalizing w handle with
  | nil => rfl
  | cons v rest ih =>
    obtain ⟨⟨handle', hname', happ'⟩, hnothing⟩ :=
      (v.step.effect_attempt (w.bench v.place)).of_isApplied hname happ
        (hmakes v List.mem_cons_self)
    have hrest : (w.attempt v).successes name rest = 0 :=
      ih (fun u hu => hmakes u (List.mem_cons_of_mem v hu)) hname' happ'
    rw [successes, hrest]
    cases happlies : v.step.appliesTo name with
    | false => rfl
    | true =>
      rw [Step.adds_eq_false_of_registry_eq (hnothing happlies)]
      rfl

/-- As long as no new handle gets its name, a handle registers at most one action, on whichever
registries it is tried. -/
theorem successes_le_one {name : String} {visits : List Visit}
    (hmakes : ∀ v ∈ visits, v.step.makes name = false) (w : Workshop) :
    w.successes name visits ≤ 1 := by
  induction visits generalizing w with
  | nil => exact Nat.zero_le 1
  | cons v rest ih =>
    have hrest : ∀ u ∈ rest, u.step.makes name = false := fun u hu =>
      hmakes u (List.mem_cons_of_mem v hu)
    rw [successes]
    cases hsuccess : v.step.appliesTo name && v.step.adds (w.bench v.place) with
    | false =>
      rw [if_neg Bool.false_ne_true, Nat.zero_add]
      exact ih hrest (w.attempt v)
    | true =>
      obtain ⟨happlies, hadds⟩ := Bool.and_eq_true_iff.1 hsuccess
      obtain ⟨handle, hname, happ⟩ := (v.step.effect_attempt (w.bench v.place)).isApplied_of_adds
        happlies (Step.registry_ne_of_adds hadds)
      have hzero : (w.attempt v).successes name rest = 0 :=
        successes_of_isApplied hrest hname happ
      rw [if_pos rfl]
      omega

end Workshop

/-- **Registering is atomic and only appends.** A handle succeeds at most once, on however many
registries it is tried and whatever happens in between. -/
theorem registration_atomic_append_only :
    (∀ (r : Registry) (h : TaskHandle) (build : Builder) (e : Error) (s : Registry × TaskHandle),
      (TaskHandle.register (.builder build)).run (r, h) = .error e s → s = (r, h))
    ∧ (∀ (r : Registry) (h : CallbackHandle) (f : Function) (file : String) (e : Error)
        (s : Registry × CallbackHandle),
      (CallbackHandle.register f file).run (r, h) = .error e s → s = (r, h))
    ∧ (∀ (r : Registry) (origin text : String) (e : Error) (r' : Registry),
      (Declarative.register origin text).run r = .error e r' → r' = r)
    ∧ (∀ (b : Bench) (step : Step) (e : Error) (b' : Bench),
      step.perform.run b = .error e b' → b' = b)
    ∧ (∀ (r : Registry) (h : TaskHandle) (build : Builder), h.isApplied = false →
      r.action? h.description.name = none →
        ∃ s, (TaskHandle.register (.builder build)).run (r, h) = .ok () s)
    ∧ (∀ (r : Registry) (h : CallbackHandle) (f : Function) (file callback : String)
        (d : Description), h.isApplied = false → h.symbol ≠ "" → h.symbol.length ≤ longestSymbol →
      CallbackName.ofTypeName f.typeName = .ok callback → r.callback? callback = none →
      h.description.checked = .ok d → r.action? d.name = none →
        ∃ s, (CallbackHandle.register f file).run (r, h) = .ok () s)
    ∧ (∀ (r : Registry) (h : TaskHandle) (build : Builder) (s : Registry × TaskHandle),
      (TaskHandle.register (.builder build)).run (r, h) = .ok () s →
        h.isApplied = false ∧ ∃ a : Action, a.toDescription = h.description
          ∧ s = ({ r with actions := r.actions ++ [a] }, { h with isApplied := true }))
    ∧ (∀ (r : Registry) (h : CallbackHandle) (f : Function) (file : String)
        (s : Registry × CallbackHandle),
      (CallbackHandle.register f file).run (r, h) = .ok () s →
        h.isApplied = false ∧ ∃ (a : Action) (callback : String),
          h.description.checked = .ok a.toDescription
          ∧ CallbackName.ofTypeName f.typeName = .ok callback
          ∧ r.callback? callback = none
          ∧ s.1.actions = r.actions ++ [a]
          ∧ s.1.callbacks.entries.Perm ((callback, f.run) :: r.callbacks.entries)
          ∧ (∀ name, s.1.callback? name = if name = callback then some f.run else r.callback? name)
          ∧ s.2 = { h with isApplied := true })
    ∧ (∀ (r : Registry) (origin text : String) (r' : Registry),
      (Declarative.register origin text).run r = .ok () r' →
        ∃ (a : Action) (d : Description) (task : Json), Declarative.ofText text = .ok (d, task)
          ∧ d.checked = .ok a.toDescription ∧ r' = { r with actions := r.actions ++ [a] })
    ∧ (∀ (name : String) (visits : List Visit),
      (∀ v ∈ visits, v.step.makes name = false) →
        ∀ w : Workshop, w.successes name visits ≤ 1) := by
  refine ⟨?_, ?_, ?_, ?_, ?_, ?_, ?_, ?_, ?_, fun name visits => Workshop.successes_le_one⟩
  · intro r h build e s hrun
    rw [TaskHandle.run_register] at hrun
    exact eq_of_whole_eq_error hrun
  · intro r h f file e s hrun
    rw [CallbackHandle.run_register] at hrun
    exact eq_of_whole_eq_error hrun
  · intro r origin text e r' hrun
    rw [Declarative.run_register] at hrun
    exact eq_of_whole_eq_error hrun
  · intro b step e b' hrun
    rw [Step.run_perform] at hrun
    exact eq_of_whole_eq_error hrun
  · intro r h build happ hname
    obtain ⟨s, hs⟩ := TaskHandle.outcome_of_free happ hname (.builder build)
    exact ⟨s, by rw [TaskHandle.run_register, hs, whole]⟩
  · intro r h f file callback d happ hsymbol hlength hcallback hfree hd hname
    obtain ⟨s, hs⟩ :=
      CallbackHandle.outcome_of_free happ hsymbol hlength hcallback hfree hd hname file
    exact ⟨s, by rw [CallbackHandle.run_register, hs, whole]⟩
  · intro r h build s hrun
    rw [TaskHandle.run_register] at hrun
    obtain ⟨hfresh, _, rfl⟩ := TaskHandle.outcome_eq_ok (eq_ok_of_whole_eq_ok hrun)
    exact ⟨hfresh, _, rfl, rfl⟩
  · intro r h f file s hrun
    rw [CallbackHandle.run_register] at hrun
    obtain ⟨hfresh, callback, d, hname, hfree, hd, _, rfl⟩ :=
      CallbackHandle.outcome_eq_ok (eq_ok_of_whole_eq_ok hrun)
    exact ⟨hfresh, _, callback, hd, hname, hfree, rfl, SortedMap.entries_insert_perm hfree f.run,
      fun name => SortedMap.get?_insert r.callbacks name callback f.run, rfl⟩
  · intro r origin text r' hrun
    rw [Declarative.run_register] at hrun
    obtain ⟨d, _, task, htext, hd, _, rfl⟩ :=
      Declarative.outcome_eq_ok (eq_ok_of_whole_eq_ok hrun)
    exact ⟨_, d, task, htext, hd, rfl⟩

/-- A name that is taken in one registry is free in another, where the handle succeeds; a third
refuses it. -/
example :
    let d : Description := ⟨"clean", "Clean", "Removes what is left.", 0, [], none⟩
    let visit (place : Nat) (handle : String) : Visit :=
      ⟨place, .applyTask handle fun _ => .ok none⟩
    let visits := [⟨0, .describeTask "other" d⟩, visit 0 "other", ⟨0, .describeTask "handle" d⟩,
      visit 0 "handle", visit 1 "handle", visit 2 "handle"]
    Workshop.successes "handle" ⟨fun _ => .empty, []⟩ visits = 1 := by decide +kernel

end ActionRegistry
