import Mathlib.Data.List.Nodup
import ActionRegistry.Proofs.Registration.History

/-!
# What holds of every registry

A registry that a script reaches holds what was registered on the way and nothing else. One step
keeps this, because the registry had room for the names of what it adds: the names stay apart, and
the callbacks stay those of the functions. The rest follows for every run.
-/

namespace ActionRegistry

def Action.callback? (a : Action) : Option String :=
  match a.recipe with
  | .builder _ => none
  | .callback spec _ => some spec.callback

/-- A registry that holds what was registered. -/
structure Registry.IsOf (r : Registry) (past : List Registration) : Prop where
  sound : ∀ g ∈ past, g.IsSound
  names : (r.actions.map (·.name)).Nodup
  actions : r.actions = past.map (·.action)
  callbacks : (r.callbacks.entries.map fun e => (some e.1, e.2)).Perm
    ((past.filterMap (·.function)).map Function.binding)

namespace Registry

theorem action?_eq_none_iff {r : Registry} {name : String} :
    r.action? name = none ↔ ∀ a ∈ r.actions, a.name ≠ name := by
  simp [action?]

theorem action?_eq_some_of_nodup {r : Registry} (h : (r.actions.map (·.name)).Nodup) {a : Action}
    (ha : a ∈ r.actions) : r.action? a.name = some a := by
  obtain ⟨actions, callbacks⟩ := r
  simp only [action?] at *
  induction actions with
  | nil => cases ha
  | cons head rest ih =>
    rw [List.map_cons, List.nodup_cons] at h
    rcases List.mem_cons.1 ha with rfl | ha
    · simp
    · have hne : head.name ≠ a.name := by
        intro heq
        exact h.1 (heq ▸ List.mem_map_of_mem ha)
      rw [List.find?_cons_of_neg (by simpa using hne)]
      exact ih h.2 ha

/-- A registry with one registration more holds it too. -/
theorem IsOf.snoc {r r' : Registry} {past : List Registration} {g : Registration}
    (h : r.IsOf past) (hg : r.Admits g r') : r'.IsOf (past ++ [g]) := by
  refine ⟨fun k hk => ?_, ?_, ?_, ?_⟩
  · rcases List.mem_append.1 hk with hk | hk
    · exact h.sound k hk
    · rw [List.mem_singleton.1 hk]
      exact hg.sound
  · have hfresh : g.action.name ∉ r.actions.map (·.name) := by
      intro hmem
      obtain ⟨a, ha, hname⟩ := List.mem_map.1 hmem
      exact action?_eq_none_iff.1 hg.fresh a ha hname
    rw [hg.actions, List.map_append, List.nodup_append]
    refine ⟨h.names, List.nodup_singleton _, fun name hname new hnew heq => hfresh ?_⟩
    rw [List.map_singleton, List.mem_singleton] at hnew
    exact hnew ▸ heq ▸ hname
  · rw [hg.actions, h.actions, List.map_append, List.map_singleton]
  · cases hf : g.function with
    | none =>
      rw [hg.plain hf, List.filterMap_append]
      simpa [hf] using h.callbacks
    | some f =>
      obtain ⟨callback, _, _, _, hname, _⟩ := hg.sound.callback f hf
      obtain ⟨hfree, hinsert⟩ := hg.bound f callback hf hname
      have hnew : (r'.callbacks.entries.map fun e => (some e.1, e.2)).Perm
          (f.binding :: r.callbacks.entries.map fun e => (some e.1, e.2)) := by
        rw [hinsert, Function.binding, hname]
        exact (SortedMap.entries_insert_perm hfree f.run).map _
      rw [List.filterMap_append, List.map_append]
      simp only [List.filterMap_cons, hf, List.filterMap_nil, List.map_cons, List.map_nil]
      exact hnew.trans ((h.callbacks.cons _).trans (List.perm_append_singleton _ _).symm)

end Registry

/-- The actions with a callback are those that were registered with a function. -/
theorem Registration.IsSound.callback?_action {g : Registration} (h : g.IsSound) :
    g.action.callback? = (g.function.map Function.binding).bind (·.1) := by
  cases hf : g.function with
  | none =>
    obtain ⟨build, hrecipe⟩ := h.task hf
    simp [Action.callback?, hrecipe]
  | some f =>
    obtain ⟨callback, symbol, file, isAvailable, hname, hrecipe⟩ := h.callback f hf
    simp [Action.callback?, hrecipe, Function.binding, hname, CallbackHandle.spec]

/-- The callbacks are those that the actions run. -/
theorem Registry.IsOf.callbackNames_perm {r : Registry} {past : List Registration}
    (h : r.IsOf past) : r.callbackNames.Perm (r.actions.filterMap Action.callback?) := by
  have hkeys := h.callbacks.filterMap (·.1)
  have hactions : (past.map (·.action)).filterMap Action.callback?
      = ((past.filterMap (·.function)).map Function.binding).filterMap (·.1) := by
    rw [List.filterMap_map, List.map_filterMap, List.filterMap_filterMap]
    exact List.filterMap_congr fun g hg => (h.sound g hg).callback?_action
  rw [h.actions, hactions]
  rw [List.filterMap_map] at hkeys
  simpa [callbackNames, SortedMap.keys, Function.comp_def] using hkeys

/-- A function is what its own name is bound to. -/
theorem Registry.IsOf.callback?_eq_some {r : Registry} {past : List Registration} (h : r.IsOf past)
    {g : Registration} (hg : g ∈ past) {f : Function} (hf : g.function = some f) {callback : String}
    (hname : CallbackName.ofTypeName? f.typeName = some callback) :
    r.callback? callback = some f.run := by
  have hf : f ∈ past.filterMap (·.function) := List.mem_filterMap.2 ⟨g, hg, hf⟩
  have hbound := h.callbacks.symm.subset (List.mem_map_of_mem hf)
  rw [Function.binding, hname] at hbound
  obtain ⟨e, he, heq⟩ := List.mem_map.1 hbound
  obtain ⟨hkey, hrun⟩ := Prod.mk.inj heq
  rw [Registry.callback?, SortedMap.get?_eq_some_iff, ← Option.some.inj hkey, ← hrun]
  exact he

theorem Registry.IsOf.eq_of_name_eq {r : Registry} {past : List Registration} (h : r.IsOf past)
    {a a' : Action} (ha : a ∈ r.actions) (ha' : a' ∈ r.actions) (hname : a.name = a'.name) :
    a = a' := by
  have hfound := action?_eq_some_of_nodup h.names ha
  rw [hname, action?_eq_some_of_nodup h.names ha'] at hfound
  exact (Option.some.inj hfound).symm

/-! ### Names that are taken

A name is trimmed before it is compared, so blank characters around it do not make it another. -/

section Taken

variable {r : Registry} {a : Action}

theorem TaskHandle.run_register_of_taken (ha : a ∈ r.actions) {d : Description}
    (hd : Text.trim d.name = a.name) {handle : TaskHandle} (hhandle : ofDescription d = .ok handle)
    (build : Builder) :
    (register (.builder build)).run (r, handle)
      = .error (.duplicateAction a.name) (r, handle) := by
  obtain ⟨hname, hfresh, _⟩ := of_ofDescription hhandle
  have htaken : (r.action? a.name).isSome := by
    rw [Option.isSome_iff_ne_none]
    exact fun hnone => Registry.action?_eq_none_iff.1 hnone a ha rfl
  have houtcome : handle.outcome r (.builder build) = .error (.duplicateAction a.name) := by
    simp [outcome, hfresh, hname, hd, htaken]
  rw [run_register, houtcome]
  rfl

theorem CallbackHandle.run_register_of_taken (ha : a ∈ r.actions) {handle : CallbackHandle}
    (hd : Text.trim handle.description.name = a.name) (f : Function) (file : String) :
    ∃ e, (register f file).run (r, handle) = .error e (r, handle) := by
  rw [run_register]
  cases hs : handle.outcome r f file with
  | error e => exact ⟨e, rfl⟩
  | ok s =>
    obtain ⟨a', hname, hadmits⟩ := admits_of_outcome hs
    exact absurd (hname.trans hd).symm (Registry.action?_eq_none_iff.1 hadmits.fresh a ha)

theorem Declarative.run_register_of_taken (ha : a ∈ r.actions) {origin text : String}
    {d : Description} {task : Json} (htext : ofText text = .ok (d, task))
    (hd : Text.trim d.name = a.name) :
    ∃ e, (register origin text).run r = .error e r := by
  rw [run_register]
  cases hr : outcome r origin text with
  | error e => exact ⟨e, rfl⟩
  | ok r' =>
    obtain ⟨d', _, a', htext', hname, hadmits⟩ := admits_of_outcome hr
    rw [htext] at htext'
    cases htext'
    exact absurd (hname.trans hd).symm (Registry.action?_eq_none_iff.1 hadmits.fresh a ha)

end Taken

namespace Reached

variable {b : Bench} {past : List Registration}

/-- Every run keeps the handles checked and the registry to what was registered. -/
theorem isOf (h : Reached b past) : b.HandlesChecked ∧ b.registry.IsOf past := by
  induction h with
  | empty =>
    refine ⟨nofun, ⟨nofun, List.nodup_nil, rfl, List.Perm.refl _⟩⟩
  | @step b past _ step ih =>
    obtain ⟨hhandles, hregistry⟩ := ih
    obtain ⟨hhandles', heffect⟩ := (step.effect_attempt b).admits hhandles
    refine ⟨hhandles', ?_⟩
    rcases heffect with hsame | ⟨g, hfunction, hadmits⟩
    · rw [Step.registered_of_registry_eq hsame, List.append_nil, hsame]
      exact hregistry
    · rw [Step.registered_of_admits hfunction hadmits]
      exact hregistry.snoc hadmits

theorem isChecked_of_mem (h : Reached b past) {a : Action} (ha : a ∈ b.registry.actions) :
    a.toDescription.IsChecked := by
  have hregistry := h.isOf.2
  rw [hregistry.actions] at ha
  obtain ⟨g, hg, rfl⟩ := List.mem_map.1 ha
  exact (hregistry.sound g hg).checked

theorem isIdentifier_of_mem (h : Reached b past) {key : String}
    (hkey : key ∈ b.registry.callbackNames) : CallbackName.IsIdentifier key := by
  have hregistry := h.isOf.2
  have hbound : some key
      ∈ (b.registry.callbacks.entries.map fun e => (some e.1, e.2)).map (·.1) := by
    obtain ⟨e, he, rfl⟩ := List.mem_map.1 hkey
    exact List.mem_map_of_mem (List.mem_map_of_mem he)
  obtain ⟨f, hf, hname⟩ := List.mem_map.1 ((hregistry.callbacks.map (·.1)).subset hbound)
  obtain ⟨f, _, rfl⟩ := List.mem_map.1 hf
  exact CallbackName.isIdentifier_of_ofTypeName? hname

end Reached

/-- **Every registry that is reached is consistent,** whatever steps were tried, of any sort and in
any order, failed ones included. -/
theorem registry_consistent {b : Bench} {past : List Registration} (h : Reached b past) :
    (b.registry.actions.map (·.name)).Nodup
    ∧ (∀ a ∈ b.registry.actions, Text.IsTrimmed a.name ∧ Text.IsTrimmed a.title
        ∧ Text.IsTrimmed a.description ∧ IsSchema a.schema)
    ∧ (∀ a ∈ b.registry.actions, ∀ d : Description, Text.trim d.name = Text.trim a.name →
        (∀ (handle : TaskHandle) (build : Builder), TaskHandle.ofDescription d = .ok handle →
          (TaskHandle.register (.builder build)).run (b.registry, handle)
            = .error (.duplicateAction a.name) (b.registry, handle))
        ∧ (∀ (handle : CallbackHandle) (f : Function) (file : String), handle.description = d →
          ∃ e, (CallbackHandle.register f file).run (b.registry, handle)
            = .error e (b.registry, handle))
        ∧ (∀ (origin text : String) (task : Json), Declarative.ofText text = .ok (d, task) →
          ∃ e, (Declarative.register origin text).run b.registry = .error e b.registry))
    ∧ b.registry.actions = past.map (·.action)
    ∧ (b.registry.callbacks.entries.map fun e => (some e.1, e.2)).Perm
        ((past.filterMap (·.function)).map Function.binding)
    ∧ b.registry.callbackNames.Perm (b.registry.actions.filterMap Action.callback?)
    ∧ b.registry.callbackNames.Nodup
    ∧ (∀ key ∈ b.registry.callbackNames, CallbackName.IsIdentifier key)
    ∧ (∀ a ∈ b.registry.actions, b.registry.action? a.name = some a) := by
  have hregistry := h.isOf.2
  have hchecked : ∀ a ∈ b.registry.actions, a.toDescription.IsChecked := by
    intro a ha
    rw [hregistry.actions] at ha
    obtain ⟨g, hg, rfl⟩ := List.mem_map.1 ha
    exact (hregistry.sound g hg).checked
  refine ⟨hregistry.names, fun a ha => ?_, fun a ha d hd => ?_, hregistry.actions,
    hregistry.callbacks, hregistry.callbackNames_perm, b.registry.callbacks.keys_nodup,
    fun key => h.isIdentifier_of_mem, fun a => Registry.action?_eq_some_of_nodup hregistry.names⟩
  · obtain ⟨hname, htitle, hdescription, hschema⟩ := hchecked a ha
    exact ⟨hname, htitle, hdescription, hschema⟩
  · rw [(hchecked a ha).name.trim_eq] at hd
    refine ⟨?_, ?_, ?_⟩
    · intro handle build hhandle
      exact TaskHandle.run_register_of_taken ha hd hhandle build
    · rintro handle f file rfl
      exact CallbackHandle.run_register_of_taken ha hd f file
    · intro origin text task htext
      exact Declarative.run_register_of_taken ha htext hd

/-- A handle that is applied twice leaves one action and its callback. -/
theorem registry_consistent_after_retry :
    let describe := Step.describeCallback "hook" ⟨" retry ", "Retry", "Runs it again.", 1, [], none⟩
      "rt" fun _ => true
    let apply := Step.applyCallback "hook"
      ⟨"hooks::retry<A>", fun _ modes => ⟨.ok (), modes, [], []⟩⟩ "src/hooks.rs"
    let b := apply.attempt (apply.attempt (describe.attempt .empty))
    b.registry.actions.map (·.name) = ["retry"] ∧ b.registry.callbackNames = ["retry"]
      ∧ (∀ key ∈ b.registry.callbackNames, CallbackName.IsIdentifier key)
      ∧ ∀ a ∈ b.registry.actions, b.registry.action? a.name = some a := by
  intro describe apply b
  obtain ⟨_, _, _, _, _, _, _, hkeys, hfound⟩ :=
    registry_consistent (.step (.step (.step .empty describe) apply) apply)
  exact ⟨by decide +kernel, by decide +kernel, hkeys, hfound⟩

end ActionRegistry
