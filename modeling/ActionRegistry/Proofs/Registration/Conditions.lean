import ActionRegistry.Proofs.Checks
import ActionRegistry.Proofs.Registration.Consistency

/-!
# What a registration asks for

To register a callback is to run nine checks and then to write. The checks read the registry, the
handle and the name of the function, and none of them waits for a write, so they can be seen as a
list. Each asks for a condition and tells when it does not hold. So the list decides what is
registered, and its order which error is told.
-/

namespace ActionRegistry

/-! ### Descriptions -/

namespace Description

def IsFit (d : Description) : ActionField → Prop
  | .name => Text.IsVisible d.name
  | .title => Text.IsVisible d.title
  | .description => Text.IsVisible d.description
  | .schema => IsSchema d.schema

/-- An error that tells that a part of a description is not fit. -/
def Tells (d : Description) : ActionField → Error → Prop
  | .schema, e => ∃ v, d.schema = some v ∧ e = .invalidField .schema (.notSchema v)
  | field, e => e = .invalidField field .blank

def checkVisible (field : ActionField) (s : String) : Result Unit :=
  if Text.trim s = "" then .error (.invalidField field .blank) else .ok ()

def check (d : Description) : ActionField → Result Unit
  | .schema => checkSchema d.schema
  | .name => checkVisible .name d.name
  | .title => checkVisible .title d.title
  | .description => checkVisible .description d.description

theorem trimmed_eq_bind (field : ActionField) (s : String) :
    trimmed field s = (checkVisible field s >>= fun _ => .ok (Text.trim s)) := by
  by_cases hblank : Text.trim s = "" <;> simp [trimmed, checkVisible, hblank]

theorem checked_eq (d : Description) : d.checked = (do
    d.check .schema
    d.check .name
    d.check .title
    d.check .description
    .ok { d with
      name := Text.trim d.name
      title := Text.trim d.title
      description := Text.trim d.description }) := by
  simp only [checked, trimmed_eq_bind, bind_assoc, Result.ok_bind, check]

theorem decides_checkVisible (field : ActionField) (s : String) :
    Result.Decides (checkVisible field s) (Text.IsVisible s) (· = .invalidField field .blank) :=
  Result.decides_ite Text.isVisible_iff fun _ => Iff.rfl

theorem decides_checkSchema (d : Description) :
    Result.Decides (checkSchema d.schema) (IsSchema d.schema) (d.Tells .schema) := by
  have htells : ∀ {v : Json}, d.schema = some v → ∀ e,
      d.Tells .schema e ↔ e = .invalidField .schema (.notSchema v) := by
    intro v hv e
    simp [Tells, hv]
  cases hschema : d.schema with
  | none => exact Result.decides_ok .absent
  | some v =>
    cases v with
    | object fields => exact Result.decides_ok (.object fields)
    | bool b => exact Result.decides_ok (.bool b)
    | null => exact Result.decides_error nofun (htells hschema)
    | number n => exact Result.decides_error nofun (htells hschema)
    | string s => exact Result.decides_error nofun (htells hschema)
    | array items => exact Result.decides_error nofun (htells hschema)

theorem decides_check (d : Description) (field : ActionField) :
    Result.Decides (d.check field) (d.IsFit field) (d.Tells field) := by
  cases field with
  | schema => exact d.decides_checkSchema
  | name => exact decides_checkVisible .name d.name
  | title => exact decides_checkVisible .title d.title
  | description => exact decides_checkVisible .description d.description

end Description

/-! ### Callbacks -/

namespace CallbackHandle

inductive Condition where
  /-- The function has a name. -/
  | named
  | symbol
  /-- The handle was not applied. -/
  | unapplied
  /-- There is no callback of the name of the function. -/
  | newCallback
  | field (field : ActionField)
  /-- There is no action of the name, which is trimmed. -/
  | newAction
  deriving DecidableEq, Repr

/-- The conditions in the order in which they are checked. -/
def conditions : List Condition :=
  [.named, .symbol, .unapplied, .newCallback, .field .schema, .field .name, .field .title,
    .field .description, .newAction]

variable (r : Registry) (h : CallbackHandle) (typeName : String)

namespace Condition

def Holds : Condition → Prop
  | named => ∃ name, CallbackName.ofTypeName typeName = .ok name
  | symbol => 1 ≤ h.symbol.length ∧ h.symbol.length ≤ 25
  | unapplied => h.isApplied = false
  | newCallback => ∀ name, CallbackName.ofTypeName typeName = .ok name → r.callback? name = none
  | field f => h.description.IsFit f
  | newAction => ∀ a ∈ r.actions, a.name ≠ Text.trim h.description.name

def Tells : Condition → Error → Prop
  | named, e => e = .notAFunction typeName
  | symbol, e => e = .invalidSymbol h.symbol
  | unapplied, e => e = .alreadyRegistered h.description.name
  | newCallback, e =>
    ∃ name, CallbackName.ofTypeName typeName = .ok name ∧ e = .duplicateCallback name
  | field f, e => h.description.Tells f e
  | newAction, e => e = .duplicateAction (Text.trim h.description.name)

def check : Condition → Result Unit
  | named => (fun _ => ()) <$> CallbackName.ofTypeName typeName
  | symbol =>
    if h.symbol.isEmpty || longestSymbol < h.symbol.length then .error (.invalidSymbol h.symbol)
    else .ok ()
  | unapplied =>
    if h.isApplied then .error (.alreadyRegistered h.description.name) else .ok ()
  | newCallback =>
    match CallbackName.ofTypeName typeName with
    | .ok name => if r.callbacks.contains name then .error (.duplicateCallback name) else .ok ()
    | .error _ => .ok ()
  | field f => h.description.check f
  | newAction =>
    if (r.action? (Text.trim h.description.name)).isSome then
      .error (.duplicateAction (Text.trim h.description.name))
    else .ok ()

theorem decides_named :
    Result.Decides ((fun _ => ()) <$> CallbackName.ofTypeName typeName)
      (∃ name, CallbackName.ofTypeName typeName = .ok name) (· = .notAFunction typeName) := by
  rw [CallbackName.ofTypeName]
  cases CallbackName.ofTypeName? typeName with
  | some name => exact Result.decides_ok ⟨name, rfl⟩
  | none => exact Result.decides_error (by simp) fun _ => Iff.rfl

theorem symbol_holds_iff :
    symbol.Holds r h typeName
      ↔ ¬(h.symbol.isEmpty || longestSymbol < h.symbol.length) = true := by
  have hempty : h.symbol.isEmpty = true ↔ h.symbol.length = 0 := by
    simp
  rw [Bool.or_eq_true, hempty, decide_eq_true_iff]
  change 1 ≤ h.symbol.length ∧ h.symbol.length ≤ 25
    ↔ ¬(h.symbol.length = 0 ∨ 25 < h.symbol.length)
  omega

theorem decides_check (c : Condition) :
    Result.Decides (c.check r h typeName) (c.Holds r h typeName) (c.Tells h typeName) := by
  cases c with
  | named => exact decides_named typeName
  | symbol => exact Result.decides_ite (symbol_holds_iff r h typeName) fun _ => Iff.rfl
  | unapplied => exact Result.decides_ite (by simp [Holds]) fun _ => Iff.rfl
  | newCallback =>
    rw [check]
    cases hname : CallbackName.ofTypeName typeName with
    | error e =>
      -- A function without a name fails the first check, so it may pass here.
      exact Result.decides_ok (by simp [Holds, hname])
    | ok name =>
      refine Result.decides_ite ?_ fun e => by simp [Tells, hname]
      rw [Bool.not_eq_true, SortedMap.contains_eq_false_iff]
      simp [Holds, hname, Registry.callback?]
  | field f => exact h.description.decides_check f
  | newAction =>
    refine Result.decides_ite ?_ fun _ => Iff.rfl
    rw [Bool.not_eq_true, Option.isSome_eq_false_iff, Option.isNone_iff_eq_none,
      Registry.action?_eq_none_iff]
    rfl

end Condition

/-- A registration passes all checks, or fails with the first that fails. -/
theorem outcome_eq_forM (f : Function) (file : String) :
    (fun _ => ()) <$> h.outcome r f file
      = conditions.forM (Condition.check r h f.typeName) := by
  simp only [conditions, List.forM, Condition.check, outcome, Description.checked_eq]
  -- The checks up to the new callback are `if`s, which are gone through by cases. Those of the
  -- description are the same on both sides and stay as they are.
  cases CallbackName.ofTypeName f.typeName with
  | error e => rfl
  | ok callback =>
    simp only [bind_assoc, Result.ok_bind, Result.map_ok]
    by_cases hsymbol : (h.symbol.isEmpty || longestSymbol < h.symbol.length) = true
    · simp only [if_pos hsymbol, Result.error_bind, Result.map_error]
    by_cases happ : h.isApplied = true
    · simp only [if_neg hsymbol, if_pos happ, Result.ok_bind, Result.error_bind, Result.map_error]
    by_cases hkey : r.callbacks.contains callback = true
    · simp only [if_neg hsymbol, if_neg happ, if_pos hkey, Result.ok_bind, Result.error_bind,
        Result.map_error]
    simp only [if_neg hsymbol, if_neg happ, if_neg hkey, Result.ok_bind, map_bind]
    by_cases haction : (r.action? (Text.trim h.description.name)).isSome = true
    · simp only [if_pos haction, Result.error_bind, Result.map_error]
    · simp only [if_neg haction, Result.ok_bind, Result.map_ok]
      rfl

/-- **What is registered is decided by nine conditions.** The error tells of the first, in the order
of the checks, that does not hold. -/
theorem registers_by_conditions (f : Function) (file : String) :
    ((∃ s, (register f file).run (r, h) = .ok () s) ↔ ∀ c ∈ conditions, c.Holds r h f.typeName)
      ∧ ∀ e, (∃ s, (register f file).run (r, h) = .error e s) ↔
        ∃ before c after, conditions = before ++ c :: after
          ∧ (∀ b ∈ before, b.Holds r h f.typeName)
          ∧ ¬c.Holds r h f.typeName ∧ c.Tells h f.typeName e := by
  have hdecides := Result.forM_decides (Condition.decides_check r h f.typeName) conditions
  rw [run_register, InPlace.exists_whole_eq_ok_iff, outcome_eq_forM]
  refine ⟨hdecides.1, fun e => ?_⟩
  rw [InPlace.exists_whole_eq_error_iff, outcome_eq_forM]
  exact hdecides.2 e

end CallbackHandle

end ActionRegistry
