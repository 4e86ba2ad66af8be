import ActionRegistry.CommandLine.Execute
import ActionRegistry.Proofs.Files.Atomic
import ActionRegistry.Proofs.Project.Standard

/-!
# What a run of the program changes

Two commands write a file, each one file and as the last thing that it does; all other work leaves
the files alone. So a run that fails has written nothing: it stopped before the write, or it failed
in it, which adds directories at most. The default configuration is not written over a file that is
there. That is looked up before directories are made, and a path that goes up again from a directory
which is missing leads nowhere until then.
-/

namespace ActionRegistry.CommandLine

/-! ### Reports -/

theorem Work.files_report (x : Work) (least : Log.Level) : (x.report least).files = x.files := by
  rw [report]
  split <;> rfl

theorem Work.code_report_eq_zero_iff (x : Work) (least : Log.Level) :
    (x.report least).code = 0 ↔ x.result = .ok () := by
  rw [report]
  split
  next h => simp [h]
  next h => simp [h, failureCode]

theorem run_of_command {w : World} {words : List String} {r : Request}
    (h : Request.read w.environment words = .ok (.command r)) :
    run w words = (r.work w).report r.job.leastLevel := by
  rw [run, h]

def request? : Except Misuse (Line Request) → Option Request
  | .ok (.command r) => some r
  | _ => none

theorem eq_of_request? {line : Except Misuse (Line Request)} {r : Request}
    (h : request? line = some r) : line = .ok (.command r) := by
  unfold request? at h
  split at h
  · cases h
    rfl
  · cases h

theorem files_run_of_no_command {w : World} {words : List String}
    (h : ∀ r, Request.read w.environment words ≠ .ok (.command r)) :
    (run w words).files = w.files := by
  rw [run]
  split
  · rfl
  · rfl
  · rfl
  next r hr => exact absurd hr (h r)

/-! ### Work -/

inductive Job.WritesNothing : Job → Prop where
  | render (parameters : Path) (taskGroupId : Option String) :
      WritesNothing (.render parameters taskGroupId none)
  | list : WritesNothing .list
  | runCallback (texts : CallbackTexts) : WritesNothing (.runCallback texts)
  | showConfig : WritesNothing .showConfig
  | checkConfig : WritesNothing .checkConfig

def Request.target? (r : Request) (fs : Files) : Option Path :=
  match r.job with
  | .render _ _ output => output
  | .writeConfig _ => some (r.rootIn fs).configFile
  | _ => none

theorem Request.target?_of_writesNothing {r : Request} (h : r.job.WritesNothing) (fs : Files) :
    r.target? fs = none := by
  obtain ⟨root, asJson, job⟩ := r
  cases h <;> rfl

/-- What work does to the files, by the path of the file that it writes. -/
inductive Effect (before : Files) : Option Path → Work → Prop where
  | untouched {x : Work} (h : x.files = before) : Effect before none x
  | failed {p : Path} {x : Work} {f : Failure} (hresult : x.result = .error f)
      (h : before.GainsDirectories x.files p.leading) : Effect before (some p) x
  | written {p : Path} {x : Work} {content : ByteArray} {place : Place}
      (hresult : x.result = .ok ()) (h : before.IsWritten x.files p content place) :
      Effect before (some p) x

theorem writeFile_cases (fs : Files) (p : Path) (text : String) (log : List Log.Event)
    (output : String) :
    (∃ e after, fs.writeWhole p text.toUTF8 = (.error e, after)
      ∧ writeFile fs p text log output = .failed (.during (.write p) (.file e)) log after
      ∧ fs.GainsDirectories after p.leading)
    ∨ ∃ after place, writeFile fs p text log output = .print output log after
      ∧ fs.IsWritten after p text.toUTF8 place := by
  rw [writeFile]
  rcases fs.writeWhole_cases p text.toUTF8 with ⟨e, after, hwrite, h⟩ | ⟨after, place, hwrite, h⟩
  · rw [hwrite]
    exact .inl ⟨e, after, rfl, rfl, h⟩
  · rw [hwrite]
    exact .inr ⟨after, place, rfl, h⟩

theorem effect_writeFile (fs : Files) (p : Path) (text : String) (log : List Log.Event)
    (output : String) : Effect fs (some p) (writeFile fs p text log output) := by
  rcases writeFile_cases fs p text log output with ⟨e, after, _, hx, h⟩ | ⟨after, place, hx, h⟩
  · rw [hx]
    exact .failed rfl h
  · rw [hx]
    exact .written rfl h

theorem isWritten_of_writeFile {fs : Files} {p : Path} {text output : String} {log : List Log.Event}
    (h : (writeFile fs p text log output).result = .ok ()) :
    ∃ place, fs.IsWritten (writeFile fs p text log output).files p text.toUTF8 place := by
  rcases writeFile_cases fs p text log output with
    ⟨e, after, _, hx, _⟩ | ⟨after, place, hx, hwritten⟩
  · rw [hx] at h
    cases h
  · rw [hx]
    exact ⟨place, hwritten⟩

theorem result_writeFile {fs : Files} {p : Path} {text : String}
    (h : (fs.writeWhole p text.toUTF8).1 = .ok ()) (log : List Log.Event) (output : String) :
    (writeFile fs p text log output).result = .ok () := by
  rcases writeFile_cases fs p text log output with ⟨e, after, hwrite, _⟩ | ⟨after, place, hx, _⟩
  · rw [hwrite] at h
    cases h
  · rw [hx]
    rfl

theorem effect_failed (fs : Files) (target : Option Path) (f : Failure) (log : List Log.Event) :
    Effect fs target (.failed f log fs) := by
  cases target with
  | none => exact .untouched rfl
  | some p => exact .failed rfl (.refl fs)

section Render

variable {fs : Files} {root parameters : Path} {taskGroupId : String} {f : Failure} {m : Manifest}
  {log : List Log.Event}

theorem manifestFor_eq_ok_iff : manifestFor fs root parameters taskGroupId = (.ok m, log) ↔
    ∃ project values, Project.inDirectory fs root = .ok project
      ∧ Parameters.load fs parameters = .ok values
      ∧ (project.render values taskGroupId).result = .ok m
      ∧ (project.render values taskGroupId).log = log := by
  unfold manifestFor openProject
  cases hproject : Project.inDirectory fs root with
  | error e => simp [Activity.attempt]
  | ok project =>
    cases hvalues : Parameters.load fs parameters with
    | error e => simp [Activity.attempt]
    | ok values => simp [Activity.attempt, Result.mapError_eq_ok_iff]

theorem run_of_render {w : World} {words : List String} {given : Option Path} {asJson : Bool}
    {target : Option Path} (h : Request.read w.environment words
      = .ok (.command ⟨given, asJson, .render parameters (some taskGroupId) target⟩)) :
    run w words = (render w.files (given.getD (.ofSteps true w.files.projectRoot)) parameters
      taskGroupId target).report .warning :=
  run_of_command h

/-- A project without a configuration has a manifest for every run that is not on `try`. -/
theorem exists_manifestFor {values : Parameters} (hconfig : fs.has root.configFile = false)
    (hvalues : Parameters.load fs parameters = .ok values)
    (hproject : values.text "project" ≠ .ok "try") (taskGroupId : String) :
    ∃ m log, manifestFor fs root parameters taskGroupId = (.ok m, log) := by
  have hof := Project.isOf_ofSources Standard.sources .default (Image.inProject fs root)
  have hrender := hof.result_render_standard values taskGroupId
  rw [if_neg fun h => hproject (Hello.isAvailable_iff.1 h)] at hrender
  exact ⟨_, _, manifestFor_eq_ok_iff.2 ⟨_, values,
    Project.inDirectory_of_load (TaskConfig.load_of_absent hconfig), hvalues, hrender, rfl⟩⟩

theorem render_of_error (h : manifestFor fs root parameters taskGroupId = (.error f, log))
    (output : Option Path) : render fs root parameters taskGroupId output = .failed f log fs := by
  unfold render
  simp only [h]

theorem render_none (h : manifestFor fs root parameters taskGroupId = (.ok m, log)) :
    render fs root parameters taskGroupId none = .print (prettyOutput m.toJson) log fs := by
  unfold render
  simp only [h]

theorem render_some (h : manifestFor fs root parameters taskGroupId = (.ok m, log)) (p : Path) :
    render fs root parameters taskGroupId (some p) = writeFile fs p m.toJson.pretty log "" := by
  unfold render
  simp only [h]

end Render

/-- Files with the parameters of a run on another project than `try`. -/
def sampleFiles : Files where
  tree := .ofEntries [(["p.yml"], .file (String.toUTF8 <| String.intercalate "\n" [
    "head_repository: r", "head_rev: r", "head_ref: r", "level: 1", "owner: o", "project: p",
    "pushlog_id: 1"]))]
  workingDirectory := []

theorem exists_manifest_sampleFiles (taskGroupId : String) : ∃ m log,
    manifestFor sampleFiles (.ofSteps true sampleFiles.projectRoot) ⟨"p.yml"⟩ taskGroupId
      = (.ok m, log) := by
  have hload : ((Parameters.load sampleFiles ⟨"p.yml"⟩).toOption.bind fun values =>
      (values.text "project").toOption) = some "p" := by
    decide +kernel
  obtain ⟨values, hvalues, hproject⟩ := Result.toOption_bind_eq_some_iff.1 hload
  refine exists_manifestFor (by decide +kernel) hvalues ?_ _
  rw [Ne, ← Result.toOption_eq_some_iff, hproject]
  decide

theorem effect_render (fs : Files) (root parameters : Path) (taskGroupId : String)
    (output : Option Path) : Effect fs output (render fs root parameters taskGroupId output) := by
  rcases h : manifestFor fs root parameters taskGroupId with ⟨f | m, log⟩
  · rw [render_of_error h]
    exact effect_failed fs output f log
  · cases output with
    | none =>
      rw [render_none h]
      exact .untouched rfl
    | some p =>
      rw [render_some h]
      exact effect_writeFile fs p _ log ""

theorem files_list (fs : Files) (root : Path) (asJson : Bool) :
    (list fs root asJson).files = fs := by
  unfold list
  split
  · rfl
  · simp only
    split <;> rfl

theorem files_runCallback (fs : Files) (root : Path) (texts : CallbackTexts) :
    (runCallback fs root texts).files = fs := by
  unfold runCallback
  simp only
  split <;> rfl

theorem files_showConfig (fs : Files) (root : Path) (asJson : Bool) :
    (showConfig fs root asJson).files = fs := by
  unfold showConfig
  split <;> rfl

theorem files_checkConfig (fs : Files) (root : Path) (asJson : Bool) :
    (checkConfig fs root asJson).files = fs := by
  unfold checkConfig
  split <;> rfl

theorem effect_writeConfig (fs : Files) (root : Path) (overwrite : Bool) :
    Effect fs (some root.configFile) (writeConfig fs root overwrite) := by
  rw [writeConfig]
  split
  · exact effect_failed fs (some root.configFile) _ []
  · exact effect_writeFile fs root.configFile _ [] _

theorem effect_work (r : Request) (w : World) :
    Effect w.files (r.target? w.files) (r.work w) := by
  rw [Request.target?, Request.work]
  cases r.job with
  | render parameters taskGroupId output => exact effect_render w.files _ parameters _ output
  | list => exact .untouched (files_list w.files _ r.asJson)
  | runCallback texts => exact .untouched (files_runCallback w.files _ texts)
  | showConfig => exact .untouched (files_showConfig w.files _ r.asJson)
  | writeConfig overwrite => exact effect_writeConfig w.files _ overwrite
  | checkConfig => exact .untouched (files_checkConfig w.files _ r.asJson)

namespace Effect

variable {before : Files} {target : Option Path} {x : Work}

theorem files_eq (h : Effect before none x) : x.files = before := by
  cases h with
  | untouched h => exact h

/-- Work that fails adds directories at most. -/
theorem gainsDirectories (h : Effect before target x) (hresult : x.result ≠ .ok ()) :
    ∃ paths, before.GainsDirectories x.files paths := by
  cases h with
  | untouched h => exact ⟨[], h ▸ .refl before⟩
  | failed _ h => exact ⟨_, h⟩
  | written hok _ => exact absurd hok hresult

theorem isWritten {p : Path} (h : Effect before (some p) x) (hresult : x.result = .ok ()) :
    ∃ content place, before.IsWritten x.files p content place := by
  cases h with
  | failed herror _ => cases herror.symm.trans hresult
  | written _ h => exact ⟨_, _, h⟩

end Effect

/-! ### The configuration that is there -/

theorem writeConfig_of_has {fs : Files} {root : Path} (h : fs.has root.configFile = true) :
    writeConfig fs root false = .failed (.alreadyExists root.configFile) [] fs := by
  simp [writeConfig, h]

theorem isWritten_of_writeConfig {fs : Files} {root : Path} {overwrite : Bool}
    (h : (writeConfig fs root overwrite).result = .ok ()) :
    ∃ place, fs.IsWritten (writeConfig fs root overwrite).files root.configFile
      TaskConfig.default.toText.toUTF8 place := by
  rw [writeConfig] at h ⊢
  split at h
  · cases h
  next hwrites =>
    rw [if_neg hwrites]
    exact isWritten_of_writeFile h

theorem Request.work_of_writeConfig {r : Request} {overwrite : Bool} {w : World}
    (h : r.job = .writeConfig overwrite) :
    r.work w = writeConfig w.files (r.rootIn w.files) overwrite := by
  rw [work, h]

/-- A file that is written where its path led before, and without turning back, was not there. -/
theorem get?_eq_none_of_isWritten {before after : Files} {p : Path} {content : ByteArray}
    {place : Place} (hrooted : before.tree.IsRooted) (hdown : ".." ∉ p.names)
    (hfree : before.has p = false) (h : before.IsWritten after p content place) :
    before.tree.get? place = none := by
  cases hold : before.tree.get? place with
  | none => rfl
  | some entry =>
    cases entry with
    | directory => exact absurd hold h.noDirectory
    | file old =>
      obtain ⟨hcheck, hdemands, _⟩ := Files.entry_eq_file_iff.1 h.entry
      -- Without turning back a walk ends where the names say, so it led to the file before too.
      obtain ⟨rfl, hfits⟩ := FileTree.eq_append_of_walk hdown h.leads
      have horigin : after.origin p = before.origin p := by
        rw [Files.origin, Files.origin, h.workingDirectory]
      rw [horigin] at hold
      have hleads := FileTree.walk_of_isRooted hrooted hold fun name hname =>
        ⟨fun hup => hdown (hup ▸ hname), hfits name hname⟩
      have hentry := Files.entry_eq_file_iff.2 ⟨hcheck, hdemands, _, hleads, hold⟩
      rw [Files.has, hentry] at hfree
      cases hfree

/-- Nothing that is there is lost to the default configuration, where the path to it does not turn
back. -/
theorem get?_writeConfig {fs : Files} {root : Path} (hrooted : fs.tree.IsRooted)
    (hdown : ".." ∉ root.configFile.names) {place : Place} {entry : Entry}
    (h : fs.tree.get? place = some entry) :
    (writeConfig fs root false).files.tree.get? place = some entry := by
  cases hhas : fs.has root.configFile with
  | true =>
    rw [writeConfig_of_has hhas]
    exact h
  | false =>
    cases effect_writeConfig fs root false with
    | failed _ hgains => exact hgains.kept place entry h
    | written _ hwritten =>
      refine hwritten.kept place entry ?_ h
      rintro rfl
      cases h.symm.trans (get?_eq_none_of_isWritten hrooted hdown hhas hwritten)

/-! ### A run of the program -/

/-- **A run writes the one file that its line names, and nothing if it fails.** Directories on the
way to the file may be made. -/
theorem only_named_file_is_written (w : World) (words : List String) :
    ((run w words).code ≠ 0 → ∀ place content,
      (run w words).files.tree.get? place = some (.file content)
        ↔ w.files.tree.get? place = some (.file content))
    ∧ ((∀ r, Request.read w.environment words ≠ .ok (.command r)) → (run w words).files = w.files)
    ∧ ∀ r, Request.read w.environment words = .ok (.command r) →
      (r.job.WritesNothing → (run w words).files = w.files)
      ∧ (∀ parameters taskGroupId output, r.job = .render parameters taskGroupId (some output) →
        (run w words).code = 0 →
          ∃ content place, w.files.IsWritten (run w words).files output content place)
      ∧ (∀ overwrite, r.job = .writeConfig overwrite → (run w words).code = 0 →
          ∃ place, w.files.IsWritten (run w words).files (r.rootIn w.files).configFile
            TaskConfig.default.toText.toUTF8 place)
      ∧ (r.job = .writeConfig false →
        (w.files.has (r.rootIn w.files).configFile = true →
          (run w words).code ≠ 0 ∧ (run w words).files = w.files)
        ∧ (w.files.tree.IsRooted → ".." ∉ (r.rootIn w.files).configFile.names →
          ∀ place entry, w.files.tree.get? place = some entry →
            (run w words).files.tree.get? place = some entry)) := by
  refine ⟨fun hcode place content => ?_, files_run_of_no_command, fun r hr => ?_⟩
  · by_cases hcommand : ∃ r, Request.read w.environment words = .ok (.command r)
    · obtain ⟨r, hr⟩ := hcommand
      rw [run_of_command hr, Ne, Work.code_report_eq_zero_iff] at hcode
      obtain ⟨paths, hgains⟩ := (effect_work r w).gainsDirectories hcode
      rw [run_of_command hr, Work.files_report]
      exact hgains.file_iff
    · rw [files_run_of_no_command (not_exists.1 hcommand)]
  · have heffect := effect_work r w
    rw [run_of_command hr, Ne, Work.code_report_eq_zero_iff, Work.files_report]
    refine ⟨fun hnothing => ?_, fun parameters taskGroupId output hjob hok => ?_,
      fun overwrite hjob hok => ?_, fun hjob => ?_⟩
    · rw [r.target?_of_writesNothing hnothing] at heffect
      exact heffect.files_eq
    · have htarget : r.target? w.files = some output := by rw [Request.target?, hjob]
      rw [htarget] at heffect
      exact heffect.isWritten hok
    · rw [r.work_of_writeConfig hjob] at hok ⊢
      exact isWritten_of_writeConfig hok
    · rw [r.work_of_writeConfig hjob]
      refine ⟨fun hhas => ?_, fun hrooted hdown place entry => get?_writeConfig hrooted hdown⟩
      rw [writeConfig_of_has hhas]
      exact ⟨nofun, rfl⟩

/-- A manifest and the default configuration are written beside a file of parameters. -/
theorem manifest_and_configuration_are_written :
    let w : World := ⟨sampleFiles, [], "new"⟩
    let rendering := ["render", "-p", "p.yml", "--task-group-id=g", "--output", "m.json"]
    let initial := ["config", "init"]
    ((run w rendering).code = 0
      ∧ ∃ content place, sampleFiles.IsWritten (run w rendering).files ⟨"m.json"⟩ content place)
    ∧ (run w initial).code = 0
      ∧ (∃ place, sampleFiles.IsWritten (run w initial).files ⟨"/taskcluster/actions.yml"⟩
        TaskConfig.default.toText.toUTF8 place)
      ∧ ∀ place entry, sampleFiles.tree.get? place = some entry →
        (run w initial).files.tree.get? place = some entry := by
  intro w rendering initial
  constructor
  · have hread : Request.read w.environment rendering
        = .ok (.command ⟨none, false, .render ⟨"p.yml"⟩ (some "g") (some ⟨"m.json"⟩)⟩) :=
      eq_of_request? (by decide +kernel)
    obtain ⟨m, log, hmanifest⟩ := exists_manifest_sampleFiles "g"
    have hfree : sampleFiles.IsFree ⟨"m.json"⟩ := by decide +kernel
    have hcode : (run w rendering).code = 0 := by
      rw [run_of_render hread, Work.code_report_eq_zero_iff, Option.getD_none,
        render_some hmanifest]
      exact result_writeFile (hfree.writeWhole (by decide +kernel) rfl) log ""
    obtain ⟨_, hwritten, _⟩ := (only_named_file_is_written w rendering).2.2 _ hread
    exact ⟨hcode, hwritten _ _ _ rfl hcode⟩
  · have hread : Request.read w.environment initial
        = .ok (.command ⟨none, false, .writeConfig false⟩) := rfl
    have hcode : (run w initial).code = 0 := by decide +kernel
    have hpath : (Request.rootIn ⟨none, false, .writeConfig false⟩ w.files).configFile
        = ⟨"/taskcluster/actions.yml"⟩ := by
      decide +kernel
    have hrooted : w.files.tree.IsRooted := FileTree.isRooted_of_entries (by decide +kernel)
    obtain ⟨_, _, hwritten, hinit⟩ := (only_named_file_is_written w initial).2.2 _ hread
    have hwritten := hwritten false rfl hcode
    have hkept := (hinit rfl).2 hrooted
    rw [hpath] at hwritten hkept
    exact ⟨hcode, hwritten, hkept (by decide +kernel)⟩

/-- The directory that is missing is made, and then the path leads to a file that is there. -/
theorem config_behind_missing_directory_is_overwritten :
    let place : Place := ["taskcluster", "actions.yml"]
    let before : Files := ⟨.ofEntries [(place, .file "owner: me\n".toUTF8)], []⟩
    let report := run ⟨before, [], "group"⟩ ["--root", "missing/..", "config", "init"]
    before.tree.get? place = some (.file "owner: me\n".toUTF8) ∧ report.code = 0
      ∧ report.files.tree.get? place ≠ before.tree.get? place := by
  decide +kernel

end ActionRegistry.CommandLine
