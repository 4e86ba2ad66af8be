import ActionRegistry.Proofs.CommandLine.Effects

/-!
# Rendering to the output and to a file

The manifest is made before it is known where it goes. So a request that names a file fails with the
same report where one without a file fails, and otherwise only in the write. A file that is written
holds the text that the other request prints, less the newline at its end.
-/

namespace ActionRegistry

namespace CommandLine

variable {parameters output : Path} {taskGroupId : String} {m : Manifest}
  {log : List Log.Event}

/-- A line without a root succeeds if there is a manifest for the root that is found. -/
theorem code_run_of_render {w : World} {words : List String} {asJson : Bool}
    (h : Request.read w.environment words
      = .ok (.command ⟨none, asJson, .render parameters (some taskGroupId) none⟩))
    (hmanifest : manifestFor w.files (.ofSteps true w.files.projectRoot) parameters taskGroupId
      = (.ok m, log)) : (run w words).code = 0 := by
  rw [run_of_render h, Option.getD_none, render_none hmanifest]
  rfl

/-! ### Both modes -/

/-- The messages of a run that fails to write a file. -/
def unwrittenMessages (messages : List String) (output : Path) (e : FileError) : List String :=
  messages ++ ["error: " ++ (Failure.during (.write output) (.file e)).message]

/-- **Rendering to a file agrees with rendering to the output.** Both lines ask for the same
manifest, and the write of the file may fail. -/
theorem render_modes_agree {w v : World} {plain filed : List String} {given : Option Path}
    {asJson asJson' : Bool} (hfiles : v.files = w.files)
    (hplain : Request.read w.environment plain
      = .ok (.command ⟨given, asJson, .render parameters (some taskGroupId) none⟩))
    (hfiled : Request.read v.environment filed
      = .ok (.command ⟨given, asJson', .render parameters (some taskGroupId) (some output)⟩)) :
    let shown := run w plain
    let written := run v filed
    (shown.code ≠ 0 → written = shown ∧ written.files = w.files)
    ∧ (shown.code = 0 → ∃ project values m,
      Project.inDirectory w.files (given.getD (.ofSteps true w.files.projectRoot)) = .ok project
      ∧ Parameters.load w.files parameters = .ok values
      ∧ (project.render values taskGroupId).result = .ok m
      ∧ shown.output = m.toJson.pretty ++ "\n"
      ∧ written.output = ""
      ∧ ((written.code = 0 ∧ written.messages = shown.messages
          ∧ written.files.readText output = .ok m.toJson.pretty)
        ∨ ∃ e, (w.files.writeWhole output m.toJson.pretty.toUTF8).1 = .error e
          ∧ written.code = failureCode
          ∧ written.messages = unwrittenMessages shown.messages output e)) := by
  intro shown written
  let root := given.getD (.ofSteps true w.files.projectRoot)
  have hshown : shown = (render w.files root parameters taskGroupId none).report .warning :=
    run_of_render hplain
  have hwritten : written
      = (render w.files root parameters taskGroupId (some output)).report .warning := by
    have h := run_of_render hfiled
    rwa [hfiles] at h
  rcases h : manifestFor w.files root parameters taskGroupId with ⟨f | m, log⟩
  · rw [render_of_error h] at hshown hwritten
    refine ⟨fun _ => ⟨hwritten.trans hshown.symm, ?_⟩, fun hcode => ?_⟩
    · rw [hwritten, Work.files_report]
      rfl
    · rw [hshown] at hcode
      cases hcode
  · rw [render_none h] at hshown
    rw [render_some h] at hwritten
    refine ⟨fun hcode => absurd ?_ hcode, fun _ => ?_⟩
    · rw [hshown]
      rfl
    · obtain ⟨project, values, hproject, hvalues, hm, _⟩ := manifestFor_eq_ok_iff.1 h
      refine ⟨project, values, m, hproject, hvalues, hm, ?_, ?_⟩
      · rw [hshown]
        rfl
      · rcases writeFile_cases w.files output m.toJson.pretty log "" with
          ⟨e, after, hwrite, hx, _⟩ | ⟨after, place, hx, h⟩
        · rw [hx] at hwritten
          rw [hwritten, hshown]
          exact ⟨rfl, .inr ⟨e, by rw [hwrite], rfl, rfl⟩⟩
        · rw [hx] at hwritten
          rw [hwritten, hshown]
          exact ⟨rfl, .inl ⟨rfl, rfl, h.readText⟩⟩

/-- The file that is written may be the one that the parameters come from. -/
theorem render_over_parameters_agrees :
    let w : World := ⟨sampleFiles, [("TASK_ID", "g")], "new"⟩
    let v : World := ⟨sampleFiles, [], "new"⟩
    let plain := ["render", "-p", "p.yml"]
    let filed := ["render", "-p", "p.yml", "--task-group-id=g", "--output", "p.yml"]
    (run w plain).code = 0 ∧ (run v filed).code = 0 ∧ (run v filed).output = ""
      ∧ ∃ manifest, (run v filed).files.readText ⟨"p.yml"⟩ = .ok manifest
        ∧ (run w plain).output = manifest ++ "\n" := by
  intro w v plain filed
  have hplain : Request.read w.environment plain
      = .ok (.command ⟨none, false, .render ⟨"p.yml"⟩ (some "g") none⟩) :=
    eq_of_request? (by decide +kernel)
  have hfiled : Request.read v.environment filed
      = .ok (.command ⟨none, false, .render ⟨"p.yml"⟩ (some "g") (some ⟨"p.yml"⟩)⟩) :=
    eq_of_request? (by decide +kernel)
  obtain ⟨_, _, hmanifest⟩ := exists_manifest_sampleFiles "g"
  have hcode : (run w plain).code = 0 := code_run_of_render hplain hmanifest
  have hfree : sampleFiles.IsFree ⟨"p.yml"⟩ := by decide +kernel
  have hwritable : ∀ content, (sampleFiles.writeWhole ⟨"p.yml"⟩ content).1 = .ok () :=
    fun _ => hfree.writeWhole (by decide +kernel) rfl
  have hagree := render_modes_agree (w := w) (v := v) rfl hplain hfiled
  obtain ⟨_, _, m, _, _, _, hshown, houtput, hend⟩ := hagree.2 hcode
  rcases hend with ⟨hwritten, _, htext⟩ | ⟨e, hwrite, _⟩
  · exact ⟨hcode, hwritten, houtput, _, htext, hshown⟩
  · cases (hwritable _).symm.trans hwrite

end CommandLine

end ActionRegistry
