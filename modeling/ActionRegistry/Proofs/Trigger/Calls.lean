import ActionRegistry.Proofs.Registration.Local
import ActionRegistry.Proofs.Trigger.Dispatch

/-!
# The calls that a trigger makes

A run shows what comes of a trigger, and not what is called on the way. To see the calls, every
callback of a registry is watched: it notes under which name, with what and in which modes it is
called, and then does what it does. The notes go in front of what the run submits. The calls of a
trigger are those whose notes turn up there, whatever is noted of a call, and this leaves one list
only. So that a trigger calls one callback once is a statement about this list.
-/

namespace ActionRegistry

/-! ### Complete parameters -/

namespace Parameters

theorem ofMap_eq_ok_iff {values : SortedMap Json} {p : Parameters} :
    ofMap values = .ok p ↔ p.values = values := by
  constructor
  · intro h
    rw [ofMap, ofMap?] at h
    split at h
    · cases h
      rfl
    · cases h
  · rintro rfl
    exact ofMap_values p

theorem ofMap_eq_error_iff {values : SortedMap Json} {e : Error} :
    ofMap values = .error e ↔ ∃ before key after, requiredKeys = before ++ key :: after
      ∧ (∀ k ∈ before, values.contains k = true) ∧ values.contains key = false
      ∧ e = .missingParameter key := by
  have hmissing : ∀ key, missing? values = some key ↔ ∃ before after,
      requiredKeys = before ++ key :: after ∧ (∀ k ∈ before, values.contains k = true)
        ∧ values.contains key = false := by
    intro key
    rw [missing?, List.find?_eq_some_iff_append]
    simp only [Bool.not_eq_true', Bool.not_eq_false']
    constructor
    · rintro ⟨hkey, before, after, hkeys, hbefore⟩
      exact ⟨before, after, hkeys, hbefore, hkey⟩
    · rintro ⟨before, after, hkeys, hbefore, hkey⟩
      exact ⟨hkey, before, after, hkeys, hbefore⟩
  rw [ofMap, ofMap?]
  split
  next hnone =>
    simp only [Result.mapError_ok, reduceCtorEq, false_iff]
    rintro ⟨before, key, after, hkeys, hbefore, hkey, _⟩
    cases hnone.symm.trans ((hmissing key).2 ⟨before, after, hkeys, hbefore, hkey⟩)
  next key hkey =>
    obtain ⟨before, after, hkeys, hbefore, habsent⟩ := (hmissing key).1 hkey
    rw [Result.mapError_error, Except.error.injEq]
    constructor
    · rintro rfl
      exact ⟨before, key, after, hkeys, hbefore, habsent, rfl⟩
    · rintro ⟨before', key', after', hkeys', hbefore', habsent', rfl⟩
      have hkey' := (hmissing key').2 ⟨before', after', hkeys', hbefore', habsent'⟩
      rw [Option.some.inj (hkey.symm.trans hkey')]

theorem exists_ofMap_iff {values : SortedMap Json} :
    (∃ p, ofMap values = .ok p) ↔ ∀ key ∈ requiredKeys, values.contains key = true := by
  constructor
  · rintro ⟨p, hp⟩
    rw [← ofMap_eq_ok_iff.1 hp]
    exact p.complete
  · intro h
    exact ⟨⟨values, h⟩, ofMap_eq_ok_iff.2 rfl⟩

end Parameters

/-! ### Watching -/

namespace SortedMap

variable {α β : Type}

/-- A map with other values for the keys. -/
def map (m : SortedMap α) (f : String → α → β) : SortedMap β where
  entries := m.entries.map fun e => (e.1, f e.1 e.2)
  ascending := by
    rw [Ascending, List.pairwise_map]
    exact m.ascending

theorem get?_map (m : SortedMap α) (f : String → α → β) (key : String) :
    (m.map f).get? key = (m.get? key).map (f key) := by
  obtain ⟨entries, ascending⟩ := m
  simp only [map, get?]
  clear ascending
  induction entries with
  | nil => rfl
  | cons e rest ih =>
    rw [List.map_cons, lookup_cons_eq_ite, lookup_cons_eq_ite, ih]
    by_cases hkey : key = e.1
    · rw [if_pos hkey, if_pos hkey, Option.map_some, hkey]
    · rw [if_neg hkey, if_neg hkey]

theorem keys_map (m : SortedMap α) (f : String → α → β) : (m.map f).keys = m.keys := by
  simp [keys, map]

end SortedMap

/-- A call of a callback that is made: the name it was found under, what it is called with, and the
modes of the services at that time. -/
structure Contact where
  name : String
  call : Call
  modes : Modes

/-- A callback that notes its calls and otherwise does what it did. -/
def Callback.watched (note : Contact → List Json) (name : String) (callback : Callback) :
    Callback := fun call modes =>
  let outcome := callback call modes
  { outcome with submitted := note ⟨name, call, modes⟩ ++ outcome.submitted }

namespace Registry

/-- A registry whose callbacks note their calls. -/
def watched (r : Registry) (note : Contact → List Json) : Registry :=
  { r with callbacks := r.callbacks.map (Callback.watched note) }

variable (r : Registry) (note : Contact → List Json)

theorem callback?_watched (name : String) :
    (r.watched note).callback? name = (r.callback? name).map (Callback.watched note name) :=
  SortedMap.get?_map r.callbacks _ name

@[simp] theorem callbackNames_watched : (r.watched note).callbackNames = r.callbackNames :=
  SortedMap.keys_map r.callbacks _

end Registry

namespace Run

/-- A run with more in front of what it submits. -/
def submitting (run : Run) (more : List Json) : Run :=
  { run with submitted := more ++ run.submitted }

/-- The calls that a trigger makes. Whatever is noted of each call, watching adds their notes. -/
def Makes (r : Registry) (i : Invocation) (modes : Modes) (calls : List Contact) : Prop :=
  ∀ note, ofInvocation (r.watched note) i modes
    = (ofInvocation r i modes).submitting (calls.flatMap note)

section Makes

variable {r : Registry} {i : Invocation} {modes : Modes} {callback : Callback} {p : Parameters}

theorem Makes.unique {calls calls' : List Contact} (h : Makes r i modes calls)
    (h' : Makes r i modes calls') : calls = calls' := by
  have hnotes : ∀ note : Contact → List Json, calls.flatMap note = calls'.flatMap note := by
    intro note
    have hsame := congrArg Run.submitted ((h note).symm.trans (h' note))
    exact List.append_cancel_right hsame
  -- The note of a call tells it from one other call, so the lists are equal place by place.
  classical
  refine List.ext_getElem? fun n => ?_
  have hplace : ∀ c : Contact, calls[n]? = some c ↔ calls'[n]? = some c := by
    intro c
    have hmark := hnotes fun d => [Json.bool (d = c)]
    simp only [← List.map_eq_flatMap] at hmark
    have hn := congrArg (·[n]?) hmark
    simp only [List.getElem?_map] at hn
    cases hcalls : calls[n]? <;> cases hcalls' : calls'[n]? <;> simp [hcalls, hcalls'] at hn ⊢
    exact hn
  exact Option.ext hplace

theorem makes_nil_of_unknown (hnone : r.callback? i.callback = none) : Makes r i modes [] := by
  intro note
  have hwatched : (r.watched note).callback? i.callback = none := by
    rw [Registry.callback?_watched, hnone, Option.map_none]
  simp only [ofInvocation, hnone, hwatched, Registry.callbackNames_watched]
  rfl

theorem makes_nil_of_incomplete (hcallback : r.callback? i.callback = some callback) {e : Error}
    (he : Parameters.ofMap i.parameters = .error e) : Makes r i modes [] := by
  intro note
  have hwatched : (r.watched note).callback? i.callback
      = some (Callback.watched note i.callback callback) := by
    rw [Registry.callback?_watched, hcallback, Option.map_some]
  simp only [ofInvocation, hcallback, hwatched, he]
  rfl

theorem makes_of_complete (hcallback : r.callback? i.callback = some callback)
    (hp : Parameters.ofMap i.parameters = .ok p) :
    Makes r i modes [⟨i.callback, callOf i p, if i.isTest then .testing else modes⟩] := by
  intro note
  have hwatched : (r.watched note).callback? i.callback
      = some (Callback.watched note i.callback callback) := by
    rw [Registry.callback?_watched, hcallback, Option.map_some]
  rw [ofInvocation_eq hwatched hp, ofInvocation_eq hcallback hp, ofCall, ofCall, submitting,
    List.flatMap_singleton]
  rfl

/-- A trigger makes one call, or something stands in its way and it makes none. -/
theorem makes_cases (r : Registry) (i : Invocation) (modes : Modes) :
    (∃ callback p, r.callback? i.callback = some callback ∧ Parameters.ofMap i.parameters = .ok p
        ∧ Makes r i modes [⟨i.callback, callOf i p, if i.isTest then .testing else modes⟩])
      ∨ (¬ (i.callback ∈ r.callbackNames
          ∧ ∀ key ∈ requiredKeys, i.parameters.contains key = true) ∧ Makes r i modes []) := by
  cases hcallback : r.callback? i.callback with
  | none =>
    have hname := Registry.not_mem_callbackNames_iff.2 hcallback
    exact .inr ⟨fun h => hname h.1, makes_nil_of_unknown hcallback⟩
  | some callback =>
    cases hp : Parameters.ofMap i.parameters with
    | error e =>
      refine .inr ⟨fun h => ?_, makes_nil_of_incomplete hcallback hp⟩
      obtain ⟨p, hok⟩ := Parameters.exists_ofMap_iff.2 h.2
      cases hp.symm.trans hok
    | ok p => exact .inl ⟨callback, p, rfl, rfl, makes_of_complete hcallback hp⟩

theorem exists_makes (r : Registry) (i : Invocation) (modes : Modes) :
    ∃ calls, Makes r i modes calls := by
  obtain ⟨_, _, _, _, hmakes⟩ | ⟨_, hmakes⟩ := makes_cases r i modes
  · exact ⟨_, hmakes⟩
  · exact ⟨[], hmakes⟩

theorem exists_makes_cons_iff :
    (∃ contact calls, Makes r i modes (contact :: calls))
      ↔ i.callback ∈ r.callbackNames
        ∧ ∀ key ∈ requiredKeys, i.parameters.contains key = true := by
  obtain ⟨callback, p, hcallback, hp, hmakes⟩ | ⟨hnot, hmakes⟩ := makes_cases r i modes
  · refine iff_of_true ⟨_, [], hmakes⟩ ⟨?_, Parameters.exists_ofMap_iff.1 ⟨p, hp⟩⟩
    exact Registry.mem_callbackNames_iff.2 ⟨callback, hcallback⟩
  · refine iff_of_false ?_ hnot
    rintro ⟨contact, calls, hcons⟩
    cases hcons.unique hmakes

/-- Whatever is called for a test sees both services in testing mode. -/
theorem Makes.modes_of_isTest {calls : List Contact} (h : Makes r i modes calls)
    (htest : i.isTest = true) : ∀ contact ∈ calls, contact.modes = .testing := by
  obtain ⟨_, _, _, _, hmakes⟩ | ⟨_, hmakes⟩ := makes_cases r i modes
  · rw [h.unique hmakes, if_pos htest]
    exact List.forall_mem_singleton.2 rfl
  · rw [h.unique hmakes]
    exact nofun

end Makes

end Run

/-- **A trigger calls the callback that it names, once, or fails before.** An unknown name
is told first, and leaves the modes alone. -/
theorem trigger_calls_named_callback (r : Registry) (i : Invocation) (modes : Modes) :
    let seen := if i.isTest then Modes.testing else modes
    let run := Run.ofInvocation r i modes
    ((∃ contact calls, Run.Makes r i modes (contact :: calls))
      ↔ i.callback ∈ r.callbackNames
        ∧ ∀ key ∈ requiredKeys, i.parameters.contains key = true)
    ∧ (∀ callback p, r.callback? i.callback = some callback → p.values = i.parameters →
        let call : Call := ⟨p, i.input, i.taskGroupId, i.taskId, i.task⟩
        let outcome := callback call seen
        (∀ calls, Run.Makes r i modes calls ↔ calls = [⟨i.callback, call, seen⟩])
        ∧ run =
          { result := outcome.result.mapError (.callbackFailed i.callback)
            modes := outcome.modes
            log := (if i.isTest then [Run.testingEvent i] else [])
              ++ Run.callEvent i :: outcome.log
            submitted := outcome.submitted }
        ∧ ∀ reason, outcome.result = .error reason → ∃ e, run.result = .error e
          ∧ e = .callbackFailed i.callback reason ∧ e.source? = some reason)
    ∧ (i.callback ∉ r.callbackNames →
        run.result = .error (.unknownCallback i.callback r.callbackNames) ∧ run.modes = modes)
    ∧ (r.callbackNames.Pairwise (· < ·)
        ∧ ∀ name, name ∈ r.callbackNames ↔ ∃ callback, r.callback? name = some callback)
    ∧ (i.callback ∈ r.callbackNames → ∀ before key after, requiredKeys = before ++ key :: after →
        (∀ k ∈ before, i.parameters.contains k = true) → i.parameters.contains key = false →
        run.result = .error (.missingParameter key) ∧ run.modes = seen) := by
  intro seen run
  refine ⟨Run.exists_makes_cons_iff, ?_, ?_, ⟨?_, fun name => Registry.mem_callbackNames_iff⟩, ?_⟩
  · intro callback p hcallback hvalues call outcome
    have hp := Parameters.ofMap_eq_ok_iff.2 hvalues
    have hmakes : Run.Makes r i modes [⟨i.callback, call, seen⟩] :=
      Run.makes_of_complete hcallback hp
    have hrun : run
        = Run.ofCall callback i p seen (if i.isTest then [Run.testingEvent i] else []) :=
      Run.ofInvocation_eq hcallback hp modes
    refine ⟨fun calls => ⟨fun h => h.unique hmakes, fun h => h ▸ hmakes⟩, hrun, ?_⟩
    intro reason hreason
    refine ⟨.callbackFailed i.callback reason, ?_, rfl, rfl⟩
    have hresult : run.result = outcome.result.mapError (.callbackFailed i.callback) :=
      congrArg Run.result hrun
    rw [hresult, hreason, Result.mapError_error]
  · intro hunknown
    have hnone := Registry.not_mem_callbackNames_iff.1 hunknown
    simp only [run, Run.ofInvocation, hnone, Run.failed, and_self]
  · exact List.pairwise_map.2 r.callbacks.ascending
  · intro hknown before key after hkeys hbefore hkey
    obtain ⟨callback, hcallback⟩ := Registry.mem_callbackNames_iff.1 hknown
    have he : Parameters.ofMap i.parameters = .error (.missingParameter key) :=
      Parameters.ofMap_eq_error_iff.2 ⟨before, key, after, hkeys, hbefore, hkey, rfl⟩
    simp only [run, seen, Run.ofInvocation, hcallback, he, Run.failed, and_self]

/-- A name that is not registered is told first, and a test of it leaves the modes alone. -/
example :
    let i : Invocation := ⟨"group", none, none, none, "nowhere", .empty, true⟩
    (Run.ofInvocation ⟨[], SortedMap.empty.insert "b" fun _ m => ⟨.ok (), m, [], []⟩⟩ i .live).modes
      = .live := rfl

end ActionRegistry
