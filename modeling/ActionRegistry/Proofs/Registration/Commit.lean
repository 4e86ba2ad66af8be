import ActionRegistry.Action.Script

/-!
# Registration takes effect as a whole

Registering writes step by step, and a callback is registered by two writes with checks before and
between them. Nothing undoes the first write when the second one fails. It cannot fail: what the
second write checks was checked before the first, and the first changes no callback. So each way to
register is a sequence of checks followed by writes, and that sequence is its `outcome` here. The
rest of the theory uses the outcomes only.
-/

namespace ActionRegistry

namespace InPlace

variable {σ τ : Type}

/-- What work gives that takes effect as a whole: the state of its outcome, or the error and the
state as it was. -/
def whole (s : σ) : Result σ → EStateM.Result Error σ Unit
  | .ok s' => .ok () s'
  | .error e => .error e s

theorem eq_of_whole_eq_error {s s' : σ} {x : Result σ} {e : Error} (h : whole s x = .error e s') :
    s' = s := by
  cases x with
  | ok _ => cases h
  | error _ =>
    cases h
    rfl

theorem eq_ok_of_whole_eq_ok {s s' : σ} {x : Result σ} (h : whole s x = .ok () s') :
    x = .ok s' := by
  cases x with
  | ok _ =>
    cases h
    rfl
  | error _ => cases h

theorem exists_whole_eq_ok_iff {s : σ} {x : Result σ} :
    (∃ s', whole s x = .ok () s') ↔ (fun _ => ()) <$> x = .ok () := by
  cases x <;> simp [whole]

theorem exists_whole_eq_error_iff {s : σ} {x : Result σ} {e : Error} :
    (∃ s', whole s x = .error e s') ↔ (fun _ => ()) <$> x = .error e := by
  cases x <;> simp [whole]

theorem result_of_whole {work : InPlace σ Unit} {s : σ} {x : Result σ}
    (h : work.run s = whole s x) : work.result s = x := by
  rw [result, h]
  cases x <;> rfl

theorem leaves_of_whole_ok {work : InPlace σ Unit} {s s' : σ}
    (h : work.run s = whole s (.ok s')) : work.leaves s = s' := by
  rw [leaves, h]
  rfl

theorem leaves_of_whole_error {work : InPlace σ Unit} {s : σ} {e : Error}
    (h : work.run s = whole s (.error e)) : work.leaves s = s := by
  rw [leaves, h]
  rfl

/-- Work on a part takes effect on all of the state as a whole, if putting back what is there
changes nothing. -/
theorem run_within_whole (part : τ → σ) (put : τ → σ → τ) {work : InPlace σ Unit} {t : τ}
    {x : Result σ} (hwork : work.run (part t) = whole (part t) x) (hput : put t (part t) = t) :
    (within part put work).run t = whole t (put t <$> x) := by
  rw [run_within, hwork]
  cases x with
  | ok _ => rfl
  | error e =>
    change EStateM.Result.error e (put t (part t)) = .error e t
    rw [hput]

end InPlace

open InPlace

/-! ### The two writes -/

theorem Registry.run_addAction (r : Registry) (a : Action) :
    (Registry.addAction a).run r
      = if (r.action? a.name).isSome then .error (.duplicateAction a.name) r
        else .ok () { r with actions := r.actions ++ [a] } := by
  by_cases h : (r.action? a.name).isSome <;> simp [Registry.addAction, h]

theorem Registry.run_addCallback (r : Registry) (name : String) (callback : Callback) :
    (Registry.addCallback name callback).run r
      = if r.callbacks.contains name then .error (.duplicateCallback name) r
        else .ok () { r with callbacks := r.callbacks.insert name callback } := by
  by_cases h : r.callbacks.contains name <;> simp [Registry.addCallback, h]

/-! ### The ways to register -/

/-- The registry and the handle after the handle is applied. -/
def TaskHandle.outcome (h : TaskHandle) (r : Registry) (recipe : Recipe) :
    Result (Registry × TaskHandle) := do
  if h.isApplied then .error (.alreadyRegistered h.description.name)
  if (r.action? h.description.name).isSome then .error (.duplicateAction h.description.name)
  .ok ({ r with actions := r.actions ++ [{ h.description with recipe }] },
    { h with isApplied := true })

theorem TaskHandle.run_register (r : Registry) (h : TaskHandle) (recipe : Recipe) :
    (TaskHandle.register recipe).run (r, h) = whole (r, h) (h.outcome r recipe) := by
  by_cases happ : h.isApplied
  · simp [TaskHandle.register, outcome, whole, happ]
  · by_cases hname : (r.action? h.description.name).isSome <;>
      simp [TaskHandle.register, outcome, whole, happ, hname, run_within, Registry.run_addAction]

def CallbackHandle.outcome (h : CallbackHandle) (r : Registry) (f : Function) (file : String) :
    Result (Registry × CallbackHandle) := do
  let callback ← CallbackName.ofTypeName f.typeName
  if h.symbol.isEmpty || longestSymbol < h.symbol.length then .error (.invalidSymbol h.symbol)
  if h.isApplied then .error (.alreadyRegistered h.description.name)
  if r.callbacks.contains callback then .error (.duplicateCallback callback)
  let d ← h.description.checked
  if (r.action? d.name).isSome then .error (.duplicateAction d.name)
  let recipe := .callback (spec d h.symbol callback file) h.isAvailable
  .ok (⟨r.actions ++ [{ d with recipe }], r.callbacks.insert callback f.run⟩,
    { h with isApplied := true })

theorem CallbackHandle.run_register (r : Registry) (h : CallbackHandle) (f : Function)
    (file : String) :
    (CallbackHandle.register f file).run (r, h) = whole (r, h) (h.outcome r f file) := by
  rw [outcome, register]
  cases hname : CallbackName.ofTypeName f.typeName with
  | error e => simp [whole]
  | ok callback =>
    by_cases hsymbol : h.symbol = "" ∨ longestSymbol < h.symbol.length
    · simp [whole, hsymbol]
    by_cases happ : h.isApplied
    · simp [whole, hsymbol, happ]
    by_cases hkey : r.callbacks.contains callback
    · simp [whole, hsymbol, happ, hkey]
    cases hd : h.description.checked with
    | error e => simp [whole, hsymbol, happ, hkey, hd, TaskHandle.ofDescription]
    | ok d =>
      by_cases haction : (r.action? d.name).isSome
      · simp [whole, hsymbol, happ, hkey, hd, haction, TaskHandle.ofDescription, run_within,
          TaskHandle.run_register, TaskHandle.outcome]
      · -- The first write leaves the callbacks alone, so `hkey` also decides the second check.
        simp [whole, hsymbol, happ, hkey, hd, haction, TaskHandle.ofDescription, run_within,
          TaskHandle.run_register, TaskHandle.outcome, Registry.run_addCallback]

/-- The registry after the action that a text declares is registered. -/
def Declarative.outcome (r : Registry) (origin text : String) : Result Registry := do
  let (description, task) ← (ofText text).mapError (.malformedSource origin)
  let d ← description.checked
  if (r.action? d.name).isSome then .error (.duplicateAction d.name)
  let recipe := .builder fun _ => .ok (some (.json task))
  .ok { r with actions := r.actions ++ [{ d with recipe }] }

theorem Declarative.run_register (r : Registry) (origin text : String) :
    (Declarative.register origin text).run r = whole r (outcome r origin text) := by
  rw [outcome, register]
  cases (ofText text).mapError (Error.malformedSource origin) with
  | error e => simp [whole]
  | ok declared =>
    cases hd : declared.1.checked with
    | error e => simp [whole, hd, TaskHandle.ofDescription]
    | ok d =>
      by_cases haction : (r.action? d.name).isSome <;>
        simp [whole, hd, haction, TaskHandle.ofDescription, run_within, TaskHandle.run_register,
          TaskHandle.outcome]

/-! ### What succeeds

A handle that was not applied can be, wherever there is room for its names. -/

theorem TaskHandle.outcome_of_free {h : TaskHandle} {r : Registry} (happ : h.isApplied = false)
    (hname : r.action? h.description.name = none) (recipe : Recipe) :
    ∃ s, h.outcome r recipe = .ok s := by
  simp [outcome, happ, hname]

theorem CallbackHandle.outcome_of_free {h : CallbackHandle} {r : Registry} {f : Function}
    {callback : String} {d : Description} (happ : h.isApplied = false) (hsymbol : h.symbol ≠ "")
    (hlength : h.symbol.length ≤ longestSymbol)
    (hcallback : CallbackName.ofTypeName f.typeName = .ok callback)
    (hfree : r.callback? callback = none) (hd : h.description.checked = .ok d)
    (hname : r.action? d.name = none) (file : String) : ∃ s, h.outcome r f file = .ok s := by
  have hfree : r.callbacks.contains callback = false := (SortedMap.contains_eq_false_iff _).2 hfree
  simp [outcome, happ, hsymbol, Nat.not_lt.2 hlength, hcallback, hfree, hd, hname]

/-! ### What a success tells

A success passed every check, so what the checks look for is not there. -/

theorem TaskHandle.outcome_eq_ok {h : TaskHandle} {r : Registry} {recipe : Recipe}
    {s : Registry × TaskHandle} (hs : h.outcome r recipe = .ok s) :
    h.isApplied = false ∧ r.action? h.description.name = none
      ∧ s = ({ r with actions := r.actions ++ [{ h.description with recipe }] },
        { h with isApplied := true }) := by
  rw [outcome] at hs
  by_cases happ : h.isApplied
  · simp [happ] at hs
  by_cases hname : (r.action? h.description.name).isSome
  · simp [happ, hname] at hs
  · simp only [happ, hname, Bool.false_eq_true, if_false, Except.ok.injEq] at hs
    exact ⟨by simpa using happ, by simpa using hname, hs.symm⟩

theorem CallbackHandle.outcome_eq_ok {h : CallbackHandle} {r : Registry} {f : Function}
    {file : String} {s : Registry × CallbackHandle} (hs : h.outcome r f file = .ok s) :
    h.isApplied = false ∧ ∃ callback d, CallbackName.ofTypeName f.typeName = .ok callback
      ∧ r.callbacks.get? callback = none ∧ h.description.checked = .ok d
      ∧ r.action? d.name = none
      ∧ s = (⟨r.actions ++ [{ d with
            recipe := .callback (spec d h.symbol callback file) h.isAvailable }],
          r.callbacks.insert callback f.run⟩, { h with isApplied := true }) := by
  rw [outcome] at hs
  cases hname : CallbackName.ofTypeName f.typeName with
  | error e => simp [hname] at hs
  | ok callback =>
    by_cases hsymbol : h.symbol = "" ∨ longestSymbol < h.symbol.length
    · simp [hname, hsymbol] at hs
    by_cases happ : h.isApplied
    · simp [hname, hsymbol, happ] at hs
    by_cases hkey : r.callbacks.contains callback
    · simp [hname, hsymbol, happ, hkey] at hs
    cases hd : h.description.checked with
    | error e => simp [hname, hsymbol, happ, hkey, hd] at hs
    | ok d =>
      by_cases haction : (r.action? d.name).isSome
      · simp [hname, hsymbol, happ, hkey, hd, haction] at hs
      · have hfree : r.callbacks.get? callback = none := by
          rw [← SortedMap.contains_eq_false_iff]
          simpa using hkey
        simp [hname, hsymbol, happ, hkey, hd, haction] at hs
        exact ⟨by simpa using happ, callback, d, rfl, hfree, rfl, by simpa using haction, hs.symm⟩

theorem Declarative.outcome_eq_ok {r r' : Registry} {origin text : String}
    (hr : outcome r origin text = .ok r') :
    ∃ description d task, ofText text = .ok (description, task) ∧ description.checked = .ok d
      ∧ r.action? d.name = none
      ∧ r' = { r with actions := r.actions
          ++ [{ d with recipe := .builder fun _ => .ok (some (.json task)) }] } := by
  rw [outcome] at hr
  cases htext : ofText text with
  | error fault => simp [htext] at hr
  | ok declared =>
    obtain ⟨description, task⟩ := declared
    cases hd : description.checked with
    | error e => simp [htext, hd] at hr
    | ok d =>
      by_cases haction : (r.action? d.name).isSome
      · simp [htext, hd, haction] at hr
      · simp [htext, hd, haction] at hr
        exact ⟨description, d, task, rfl, hd, by simpa using haction, hr.symm⟩

end ActionRegistry
