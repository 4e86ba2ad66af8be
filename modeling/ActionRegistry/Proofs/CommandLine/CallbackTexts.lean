import ActionRegistry.CommandLine.Execute
import ActionRegistry.Proofs.Decoding.Record
import ActionRegistry.Proofs.Json.Decode
import ActionRegistry.Proofs.Json.Reader
import ActionRegistry.Proofs.Manifest.RoundTrip

/-!
# Texts and documents of an invocation

An invocation comes to the program in texts, and it may be written as one JSON value. Both forms are
read to the same invocation. Each variable is good or not on its own, whatever the others hold, and
reading the texts fails with the first that is not. The order in which they are looked at is kept in
one list; that reading follows it is shown by one step for a variable, and so for all of them.
-/

namespace ActionRegistry

open Decoding

namespace CallbackTexts

/-! ### What a text stands for -/

/-- A text stands for nothing if it is not there, or if trimming leaves nothing of it or the word of
a null. -/
def IsAbsent : Option String → Prop
  | none => True
  | some s => Text.trim s = "" ∨ Text.trim s = "null"

instance : DecidablePred IsAbsent
  | none => .isTrue trivial
  | some s => inferInstanceAs (Decidable (Text.trim s = "" ∨ Text.trim s = "null"))

/-- The value that is written in a text, if one is. -/
def written? (text : Option String) : Option Json :=
  if IsAbsent text then none else text.bind fun s => Json.read? (Text.trim s)

theorem written?_of_not_isAbsent {s : String} (h : ¬ IsAbsent (some s)) :
    written? (some s) = Json.read? (Text.trim s) := by
  rw [written?, if_neg h, Option.bind_some]

theorem written?_ne_null (text : Option String) : written? text ≠ some .null := by
  intro hwritten
  by_cases habsent : IsAbsent text
  · rw [written?, if_pos habsent] at hwritten
    cases hwritten
  · cases text with
    | none => exact habsent trivial
    | some s =>
      obtain ⟨hempty, hnull⟩ := not_or.1 habsent
      rw [written?_of_not_isAbsent habsent,
        Json.read?_eq_null_iff (Text.isTrimmed_trim hempty)] at hwritten
      exact hnull hwritten

theorem value_eq (name : String) (text : Option String) :
    value name text = if IsAbsent text then .ok none
      else (written? text).elim (.error (.notJson name)) fun v => .ok (some v) := by
  cases text with
  | none => rfl
  | some s =>
    by_cases hempty : Text.trim s = ""
    · rw [if_pos (.inl hempty), value, Option.map_some, hempty]
      simp
    · by_cases habsent : IsAbsent (some s)
      · have hnull := habsent.resolve_left hempty
        have hread : Json.read? "null" = some .null := rfl
        rw [if_pos habsent, value, Option.map_some, hnull]
        simp [hread]
      · have hwritten := written?_ne_null (some s)
        rw [if_neg habsent, value, Option.map_some]
        rw [written?_of_not_isAbsent habsent] at hwritten ⊢
        cases hread : Json.read? (Text.trim s) with
        | none => simp [hread]
        | some v =>
          -- The match tells a null from other values, and this value is none.
          have hv : v ≠ .null := fun hv => hwritten (hread.trans (congrArg some hv))
          simp [hread]

/-! ### Variables in their order -/

/-- A variable with its text, and what may be written there. -/
structure Variable where
  name : String
  text : Option String
  Accepts : Json → Prop

def Variable.IsGood (x : Variable) : Prop :=
  IsAbsent x.text ∨ ∃ v, written? x.text = some v ∧ x.Accepts v

/-- The variables of an invocation, in the order in which they are looked at. -/
def inOrder (t : CallbackTexts) : List Variable := [
  ⟨"ACTION_TASK_ID", t.taskId, fun v => ∃ id, v = .string id⟩,
  ⟨"ACTION_PARAMETERS", some t.parameters, fun v => ∃ fields, v = .object fields⟩,
  ⟨"ACTION_TASK", t.task, fun _ => True⟩,
  ⟨"ACTION_INPUT", t.input, fun _ => True⟩]

def Fault.Names (f : Fault) (x : Variable) : Prop :=
  ∃ complaint, f.message = x.name ++ " " ++ complaint

/-- The outcome of looking at one variable: it is there just if the variable is good, and else the
variable is named. -/
structure Judges {α : Type} (x : Variable) (outcome : Except Fault α) : Prop where
  isGood : ∀ a, outcome = .ok a → x.IsGood
  names : ∀ f, outcome = .error f → ¬ x.IsGood ∧ f.Names x

/-- The outcome of looking at some variables in their order: it is there just if all are good, and
else the first that is not is named. -/
structure Follows {α : Type} (vars : List Variable) (outcome : Except Fault α) : Prop where
  isOk_iff : (∃ a, outcome = .ok a) ↔ ∀ x ∈ vars, x.IsGood
  names : ∀ before x after, vars = before ++ x :: after → (∀ y ∈ before, y.IsGood) →
    ¬ x.IsGood → ∃ f, outcome = .error f ∧ f.Names x

theorem follows_nil {α : Type} (a : α) : Follows [] (.ok a : Except Fault α) where
  isOk_iff := ⟨fun _ => nofun, fun _ => ⟨a, rfl⟩⟩
  names before x after h := by cases before <;> cases h

/-- What is done with the value of a good variable looks at the others. -/
theorem Judges.bind {α β : Type} {x : Variable} {rest : List Variable} {outcome : Except Fault α}
    {next : α → Except Fault β} (hx : Judges x outcome) (hnext : ∀ a, Follows rest (next a)) :
    Follows (x :: rest) (outcome >>= next) := by
  cases outcome with
  | ok a =>
    have hgood := hx.isGood a rfl
    refine ⟨?_, fun before y after hlist hbefore hy => ?_⟩
    · rw [List.forall_mem_cons, and_iff_right hgood]
      exact (hnext a).isOk_iff
    -- What is named is not the variable itself, which is good, so it is among the others.
    · cases before with
      | nil =>
        cases hlist
        exact absurd hgood hy
      | cons z before =>
        obtain ⟨rfl, hrest⟩ := List.cons.inj hlist
        exact (hnext a).names before y after hrest
          (fun w hw => hbefore w (List.mem_cons_of_mem _ hw)) hy
  | error f =>
    obtain ⟨hbad, hnames⟩ := hx.names f rfl
    refine ⟨⟨fun h => h.elim nofun, fun h => absurd (h x List.mem_cons_self) hbad⟩,
      fun before y after hlist hbefore hy => ?_⟩
    cases before with
    | nil =>
      cases hlist
      exact ⟨f, rfl, hnames⟩
    | cons z before =>
      obtain ⟨rfl, _⟩ := List.cons.inj hlist
      exact absurd (hbefore x List.mem_cons_self) hbad

/-- Looking at a variable judges it, if what is done with its value takes nothing, takes what is
accepted, and names the variable of anything else. -/
theorem judges_value {α : Type} (x : Variable) {read : Option Json → Except Fault α}
    (hnone : ∃ a, read none = .ok a) (haccepts : ∀ v, x.Accepts v → ∃ a, read (some v) = .ok a)
    (hrejects : ∀ v, ¬ x.Accepts v → ∃ f, read (some v) = .error f ∧ f.Names x) :
    Judges x (value x.name x.text >>= read) := by
  rw [value_eq]
  by_cases habsent : IsAbsent x.text
  · obtain ⟨a, ha⟩ := hnone
    rw [if_pos habsent, Result.ok_bind, ha]
    exact ⟨fun _ _ => .inl habsent, nofun⟩
  · rw [if_neg habsent]
    cases hwritten : written? x.text with
    | none =>
      refine ⟨nofun, fun f hf => ⟨?_, ?_⟩⟩
      · rintro (h | ⟨v, hv, _⟩)
        · exact habsent h
        · cases hwritten.symm.trans hv
      · cases hf
        refine ⟨"is not valid JSON", ?_⟩
        rw [String.append_assoc]
        rfl
    | some v =>
      by_cases hv : x.Accepts v
      · obtain ⟨a, ha⟩ := haccepts v hv
        rw [Option.elim_some, Result.ok_bind, ha]
        exact ⟨fun _ _ => .inr ⟨v, hwritten, hv⟩, nofun⟩
      · obtain ⟨f, hf, hnames⟩ := hrejects v hv
        rw [Option.elim_some, Result.ok_bind, hf]
        refine ⟨nofun, fun g hg => ⟨?_, ?_⟩⟩
        · rintro (h | ⟨w, hw, haccepted⟩)
          · exact habsent h
          · cases hwritten.symm.trans hw
            exact hv haccepted
        · cases hg
          exact hnames

theorem taskIdOf_of_not_text {v : Json} (h : ¬ ∃ id, v = .string id) :
    taskIdOf (some v) = .error (.taskIdNotText v) := by
  cases v with
  | string id => exact absurd ⟨id, rfl⟩ h
  | _ => rfl

theorem parametersOf_of_not_object {v : Json} (h : ¬ ∃ fields, v = .object fields) :
    parametersOf (some v) = .error (.parametersNotObject v) := by
  cases v with
  | object fields => exact absurd ⟨fields, rfl⟩ h
  | _ => rfl

theorem judges_taskId (t : CallbackTexts) :
    Judges ⟨"ACTION_TASK_ID", t.taskId, fun v => ∃ id, v = .string id⟩
      (value "ACTION_TASK_ID" t.taskId >>= taskIdOf) := by
  refine judges_value ⟨"ACTION_TASK_ID", t.taskId, _⟩ ⟨none, rfl⟩ ?_ fun v hv => ?_
  · rintro v ⟨id, rfl⟩
    exact ⟨some id, rfl⟩
  · refine ⟨_, taskIdOf_of_not_text hv, "must be a string or null, got " ++ v.compact, ?_⟩
    rw [← String.append_assoc]
    rfl

theorem judges_parameters (t : CallbackTexts) :
    Judges ⟨"ACTION_PARAMETERS", some t.parameters, fun v => ∃ fields, v = .object fields⟩
      (value "ACTION_PARAMETERS" (some t.parameters) >>= parametersOf) := by
  refine judges_value ⟨"ACTION_PARAMETERS", some t.parameters, _⟩ ⟨.empty, rfl⟩ ?_ fun v hv => ?_
  · rintro v ⟨fields, rfl⟩
    exact ⟨.ofList fields, rfl⟩
  · refine ⟨_, parametersOf_of_not_object hv, "must be an object, got " ++ v.compact, ?_⟩
    rw [← String.append_assoc]
    rfl

theorem judges_any (name : String) (text : Option String) :
    Judges ⟨name, text, fun _ => True⟩ (value name text) := by
  have h : Judges ⟨name, text, fun _ => True⟩ (value name text >>= .ok) :=
    judges_value ⟨name, text, _⟩ ⟨none, rfl⟩ (fun v _ => ⟨some v, rfl⟩)
      fun _ hv => absurd trivial hv
  have hself : (value name text >>= .ok) = value name text := bind_pure _
  rwa [hself] at h

/-- Reading the texts looks at the variables in their order. -/
theorem follows_invocation (t : CallbackTexts) : Follows t.inOrder t.invocation := by
  have h := t.judges_taskId.bind fun taskId => t.judges_parameters.bind fun parameters =>
    (judges_any "ACTION_TASK" t.task).bind fun task =>
    (judges_any "ACTION_INPUT" t.input).bind fun input =>
    follows_nil
      (⟨t.taskGroupId, taskId, task, input, t.callback, parameters, t.isTest⟩ : Invocation)
  simpa only [bind_assoc, inOrder, invocation] using h

/-! ### The document -/

def document (t : CallbackTexts) : Json :=
  .object [
    ("task_group_id", .string t.taskGroupId),
    ("task_id", (written? t.taskId).getD .null),
    ("task", (written? t.task).getD .null),
    ("input", (written? t.input).getD .null),
    ("callback", .string t.callback),
    ("parameters", (written? (some t.parameters)).getD (.object [])),
    ("test", .bool t.isTest)]

theorem eq_written?_of_value {name : String} {text : Option String} {v : Option Json}
    (h : value name text = .ok v) : v = written? text := by
  rw [value_eq] at h
  by_cases habsent : IsAbsent text
  · rw [if_pos habsent] at h
    rw [written?, if_pos habsent, Except.ok.inj h]
  · rw [if_neg habsent] at h
    cases hwritten : written? text with
    | none =>
      rw [hwritten] at h
      cases h
    | some w =>
      rw [hwritten] at h
      exact (Except.ok.inj h).symm

theorem asOption_of_taskIdOf {v : Option Json} {id : Option String} (h : taskIdOf v = .ok id) :
    Json.asOption Json.asText (v.getD .null) = .ok id := by
  cases v with
  | none =>
    cases h
    rfl
  | some v =>
    cases v with
    | string s =>
      cases h
      rfl
    | _ => cases h

theorem asMap_of_parametersOf {v : Option Json} {m : SortedMap Json} (h : parametersOf v = .ok m) :
    Json.asMap .ok (v.getD (.object [])) = .ok m := by
  cases v with
  | none =>
    cases h
    rfl
  | some v =>
    cases v with
    | object fields =>
      cases h
      exact Json.asMap_fields fields
    | _ => cases h

theorem ofJson_document {t : CallbackTexts} {i : Invocation} (h : t.invocation = .ok i) :
    Invocation.ofJson t.document = .ok i := by
  simp only [invocation, Result.bind_eq_ok_iff] at h
  obtain ⟨id, hid, taskId, htaskId, values, hvalues, parameters, hparameters, task, htask,
    input, hinput, hi⟩ := h
  cases hi
  cases eq_written?_of_value hid
  cases eq_written?_of_value hvalues
  cases eq_written?_of_value htask
  cases eq_written?_of_value hinput
  have htext : ∀ s, Json.asText (.string s) = .ok s := fun _ => rfl
  have hbool : Json.asBool (.bool t.isTest) = .ok t.isTest := rfl
  refine Record.ofEntries_eq_ok (fun _ => rfl) Invocation.isChecked_fields (by simp)
    (by simp [Invocation.names_record]) ?_
  simp [Invocation.record, lookup_cons_eq_ite, htext, hbool, asOption_of_taskIdOf htaskId,
    Json.asOption_getD (written?_ne_null _), asMap_of_parametersOf hparameters]

end CallbackTexts

namespace CommandLine

/-! ### The command -/

/-- Running a callback, with any way to trigger it. -/
def runCallbackBy (trigger : Project → Invocation → Run × Project) (fs : Files) (root : Path)
    (texts : CallbackTexts) : Work :=
  let inputs : Except Failure (Project × Invocation) := do
    let project ← openProject fs root
    let invocation ← texts.invocation.mapError .badTexts
    .ok (project, invocation)
  match inputs with
  | .error f => .failed f [] fs
  | .ok (project, invocation) =>
    let (run, _) := trigger project invocation
    ⟨(Activity.callback invocation.callback).attempt run.result, "", run.log, fs⟩

theorem runCallbackBy_trigger (fs : Files) (root : Path) (texts : CallbackTexts) :
    runCallbackBy Project.trigger fs root texts = runCallback fs root texts := by
  unfold runCallback runCallbackBy
  rfl

/-- A command that fails before anything is triggered: the failure is that of opening the project,
or the fault of the texts if it opens. -/
theorem exists_failed_of_fault {texts : CallbackTexts} {f : CallbackTexts.Fault}
    (h : texts.invocation = .error f) (fs : Files) (root : Path) :
    ∃ g : Failure, (∀ project, openProject fs root = .ok project → g = .badTexts f)
      ∧ ∀ trigger, runCallbackBy trigger fs root texts = .failed g [] fs := by
  cases hproject : openProject fs root with
  | error g =>
    refine ⟨g, nofun, fun trigger => ?_⟩
    unfold runCallbackBy
    rw [hproject]
    rfl
  | ok project =>
    refine ⟨.badTexts f, fun _ _ => rfl, fun trigger => ?_⟩
    unfold runCallbackBy
    rw [hproject, h]
    rfl

theorem run_of_failed {w : World} {words : List String} {r : Request} {g : Failure}
    (hread : Request.read w.environment words = .ok (.command r))
    (hwork : r.work w = .failed g [] w.files) :
    run w words = ⟨1, "", ["error: " ++ g.message], w.files⟩ := by
  have hreport : run w words = (r.work w).report r.job.leastLevel := by rw [run, hread]
  rw [hreport, hwork]
  rfl

end CommandLine

open CommandLine CallbackTexts in
/-- **The texts of an invocation agree with its document.** The first variable that is not good is
named, before anything is triggered. -/
theorem texts_read_as_document (t : CallbackTexts) :
    ((∃ i, t.invocation = .ok i) ↔ ∀ x ∈ t.inOrder, x.IsGood)
    ∧ (∀ i, t.invocation = .ok i → Invocation.ofJson t.document = .ok i)
    ∧ ∀ before x after, t.inOrder = before ++ x :: after → (∀ y ∈ before, y.IsGood) → ¬ x.IsGood →
        ∃ f, t.invocation = .error f ∧ f.Names x
          ∧ ∀ (w : World) words r, Request.read w.environment words = .ok (.command r) →
              r.job = .runCallback t →
              ∃ g : CommandLine.Failure, run w words = ⟨1, "", ["error: " ++ g.message], w.files⟩
                ∧ (∀ project, openProject w.files (r.rootIn w.files) = .ok project →
                    g = .badTexts f)
                ∧ r.work w = runCallbackBy Project.trigger w.files (r.rootIn w.files) t
                ∧ ∀ trigger, runCallbackBy trigger w.files (r.rootIn w.files) t
                    = .failed g [] w.files := by
  refine ⟨t.follows_invocation.isOk_iff, fun i => ofJson_document,
    fun before x after hlist hbefore hx => ?_⟩
  obtain ⟨f, hf, hnames⟩ := t.follows_invocation.names before x after hlist hbefore hx
  refine ⟨f, hf, hnames, fun w words r hread hjob => ?_⟩
  obtain ⟨g, hg, hfailed⟩ := exists_failed_of_fault hf w.files (r.rootIn w.files)
  have hwork : r.work w = runCallbackBy Project.trigger w.files (r.rootIn w.files) t := by
    rw [runCallbackBy_trigger, Request.work, hjob]
  exact ⟨g, run_of_failed hread (hwork.trans (hfailed _)), hg, hwork, hfailed⟩

open CommandLine CallbackTexts in
/-- Texts with the word of a null between blanks are read, and parameters in an array are named. -/
theorem texts_read_with_null_and_rejected_with_array :
    let texts : CallbackTexts := ⟨"group", "retry", some " null ", some "[1]", none, " \t", true⟩
    let environment : Environment := [("ACTION_TASK_GROUP_ID", "group"),
      ("ACTION_CALLBACK", "retry"), ("ACTION_TASK", "\x7b"), ("ACTION_PARAMETERS", "[]")]
    let world : World := ⟨⟨.empty, []⟩, environment, "fresh"⟩
    (∃ i, texts.invocation = .ok i ∧ Invocation.ofJson texts.document = .ok i)
    ∧ ∃ f : Fault, (∃ complaint, f.message = "ACTION_PARAMETERS" ++ " " ++ complaint)
      ∧ (run world ["action-callback"]).code = 1 := by
  intro texts environment world
  refine ⟨?_, ?_⟩
  · obtain ⟨hread, hdocument, _⟩ := texts_read_as_document texts
    have hgood : ∀ x ∈ texts.inOrder, x.IsGood := by
      have hblank : IsAbsent (some " \t") := .inl (by decide)
      have hnull : IsAbsent (some " null ") := .inr (by decide)
      have htask : ∃ v, written? (some "[1]") = some v := ⟨_, rfl⟩
      intro x hx
      simp only [inOrder, List.mem_cons, List.not_mem_nil, or_false] at hx
      rcases hx with rfl | rfl | rfl | rfl
      · exact .inl hnull
      · exact .inl hblank
      · exact .inr (htask.imp fun v hv => ⟨hv, trivial⟩)
      · exact .inl trivial
    obtain ⟨i, hi⟩ := hread.2 hgood
    exact ⟨i, hi, hdocument i hi⟩
  · let t : CallbackTexts := ⟨"group", "retry", none, some "\x7b", none, "[]", false⟩
    let x : Variable := ⟨"ACTION_PARAMETERS", some "[]", fun v => ∃ fields, v = .object fields⟩
    have hbefore : ∀ y ∈ t.inOrder.take 1, y.IsGood := by
      intro y hy
      cases List.mem_singleton.1 hy
      exact .inl trivial
    have hbad : ¬ x.IsGood := by
      rintro (habsent | ⟨v, hv, fields, rfl⟩)
      · exact absurd habsent (by decide)
      · cases hv
    obtain ⟨_, _, hfirst⟩ := texts_read_as_document t
    obtain ⟨f, _, hnames, hcommand⟩ :=
      hfirst (t.inOrder.take 1) x (t.inOrder.drop 2) rfl hbefore hbad
    obtain ⟨g, hrun, _⟩ := hcommand world ["action-callback"] ⟨none, false, .runCallback t⟩ rfl rfl
    exact ⟨f, hnames, by rw [hrun]⟩

end ActionRegistry
