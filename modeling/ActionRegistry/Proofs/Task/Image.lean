import ActionRegistry.Proofs.Files.Tree
import ActionRegistry.Proofs.Text.Trim
import ActionRegistry.Task.Image

/-!
# References of images

The reference of an image is put together of two texts that are read off files and trimmed. The
version is read off a file of the image. So is the registry if the image has a file for it, and
otherwise it is read off the file that all images share. A file that is not there is told. A file
that is there and blank is not: its part of the reference is empty, and nothing can be pulled by
that.
-/

namespace ActionRegistry

/-! ### Trimmed files -/

namespace Files

variable {fs : Files} {p : Path} {text : String}

theorem readTrimmed_of_has (h : fs.has p = true) :
    fs.readTrimmed p = (fun text => some (Text.trim text)) <$> fs.readText p :=
  if_pos h

theorem readTrimmed_of_readText (h : fs.readText p = .ok text) :
    fs.readTrimmed p = .ok (some (Text.trim text)) := by
  rw [readTrimmed_of_has (has_of_readText h), h]
  rfl

theorem readTrimmed_of_absent (h : fs.has p = false) : fs.readTrimmed p = .ok none :=
  if_neg (by simp [h])

end Files

namespace Image

variable {fs : Files} {root p : Path} {name : String} {missing e : Error}

/-! ### The two files -/

/-- The file that the registry of an image is read off. -/
def registrySource (fs : Files) (root : Path) (name : String) : Path :=
  if fs.has (root.imageDirectory name).registryFile then (root.imageDirectory name).registryFile
  else root.imagesDirectory.registryFile

/-- The file that the version of an image is read off. -/
def versionSource (root : Path) (name : String) : Path := (root.imageDirectory name).versionFile

/-- The trimmed text of a file that has to be there. -/
def demand (fs : Files) (p : Path) (missing : Error) : Result String := do
  match ← Result.ofFile (fs.readTrimmed p) with
  | some text => .ok text
  | none => .error missing

/-- An error that tells why a file gives no text. -/
def Tells (fs : Files) (p : Path) (missing e : Error) : Prop :=
  (fs.has p = false ∧ e = missing)
    ∨ ∃ f, fs.has p = true ∧ fs.readText p = .error f ∧ e = .file f

theorem demand_of_absent (h : fs.has p = false) : demand fs p missing = .error missing := by
  rw [demand, Files.readTrimmed_of_absent h]
  rfl

theorem demand_of_has (h : fs.has p = true) :
    demand fs p missing = Text.trim <$> Result.ofFile (fs.readText p) := by
  rw [demand, Files.readTrimmed_of_has h]
  cases fs.readText p <;> rfl

theorem demand_eq_ok_iff {s : String} :
    demand fs p missing = .ok s ↔ ∃ text, fs.readText p = .ok text ∧ s = Text.trim text := by
  cases hp : fs.has p with
  | false =>
    rw [demand_of_absent hp]
    constructor
    · intro h
      cases h
    · rintro ⟨text, htext, _⟩
      rw [Files.has_of_readText htext] at hp
      cases hp
  | true =>
    rw [demand_of_has hp]
    cases fs.readText p <;> simp [Result.ofFile, eq_comm]

theorem demand_eq_error_iff : demand fs p missing = .error e ↔ Tells fs p missing e := by
  cases hp : fs.has p with
  | false =>
    rw [demand_of_absent hp]
    simp [Tells, hp, eq_comm]
  | true =>
    rw [demand_of_has hp]
    cases htext : fs.readText p <;> simp [Tells, hp, htext, Result.ofFile, eq_comm]

theorem version_eq : version fs root name
    = demand fs (versionSource root name)
      (.unresolvedImage name (.noVersion (versionSource root name))) := rfl

/-- The shared file counts just where the image has no file of its own. -/
theorem registry_eq : registry fs root name
    = demand fs (registrySource fs root name) (.unresolvedImage name .noRegistry) := by
  rw [registry, registrySource]
  cases hown : fs.has (root.imageDirectory name).registryFile with
  | false =>
    rw [Files.readTrimmed_of_absent hown]
    rfl
  | true =>
    rw [if_pos rfl, demand_of_has hown, Files.readTrimmed_of_has hown]
    cases fs.readText (root.imageDirectory name).registryFile <;> rfl

/-! ### References -/

theorem inProject_eq_ok_iff {s : String} : inProject fs root name = .ok s ↔
    ∃ registry version, fs.readText (registrySource fs root name) = .ok registry
      ∧ fs.readText (versionSource root name) = .ok version
      ∧ s = Text.trim registry ++ "/" ++ name ++ ":" ++ Text.trim version := by
  rw [inProject, registry_eq, version_eq]
  simp only [Result.bind_eq_ok_iff, demand_eq_ok_iff, Except.ok.injEq]
  constructor
  · rintro ⟨_, ⟨registry, hregistry, hr⟩, _, ⟨version, hversion, hv⟩, hs⟩
    subst hr hv
    exact ⟨registry, version, hregistry, hversion, hs.symm⟩
  · rintro ⟨registry, version, hregistry, hversion, hs⟩
    exact ⟨_, ⟨registry, hregistry, rfl⟩, _, ⟨version, hversion, rfl⟩, hs.symm⟩

theorem inProject_eq_error_iff : inProject fs root name = .error e ↔
    Tells fs (registrySource fs root name) (.unresolvedImage name .noRegistry) e
    ∨ (∃ registry, fs.readText (registrySource fs root name) = .ok registry)
      ∧ Tells fs (versionSource root name)
        (.unresolvedImage name (.noVersion (versionSource root name))) e := by
  rw [inProject, registry_eq, version_eq, ← demand_eq_error_iff, ← demand_eq_error_iff]
  have hread : (∃ registry, fs.readText (registrySource fs root name) = .ok registry) ↔
      ∃ registry, demand fs (registrySource fs root name) (.unresolvedImage name .noRegistry)
        = .ok registry := by
    simp only [demand_eq_ok_iff]
    exact ⟨fun ⟨text, htext⟩ => ⟨_, text, htext, rfl⟩, fun ⟨_, text, htext, _⟩ => ⟨text, htext⟩⟩
  rw [hread]
  cases demand fs (registrySource fs root name) (.unresolvedImage name .noRegistry) with
  | error e' => simp
  | ok registry =>
    cases demand fs (versionSource root name)
      (.unresolvedImage name (.noVersion (versionSource root name))) <;> simp

/-- **A reference is made of two files.** The error tells of the file of the registry or, where that
can be read, of the version. -/
theorem reference_is_made_of_files (fs : Files) (root : Path) (name : String) :
    (∀ s, inProject fs root name = .ok s ↔ ∃ registry version,
      fs.readText (registrySource fs root name) = .ok registry
      ∧ fs.readText (versionSource root name) = .ok version
      ∧ s = Text.trim registry ++ "/" ++ name ++ ":" ++ Text.trim version)
    ∧ (∀ e, inProject fs root name = .error e ↔
      Tells fs (registrySource fs root name) (.unresolvedImage name .noRegistry) e
      ∨ (∃ registry, fs.readText (registrySource fs root name) = .ok registry)
        ∧ Tells fs (versionSource root name)
          (.unresolvedImage name (.noVersion (versionSource root name))) e)
    ∧ (fs.has (registrySource fs root name) = false ∨ fs.has (versionSource root name) = false →
      ∃ e, inProject fs root name = .error e)
    ∧ ((∀ p ∈ [registrySource fs root name, versionSource root name], ∀ text,
        fs.readText p = .ok text → Text.IsVisible text) →
      ∀ s, inProject fs root name = .ok s → ∃ registry version,
        fs.readTrimmed (registrySource fs root name) = .ok (some registry)
        ∧ fs.readTrimmed (versionSource root name) = .ok (some version)
        ∧ Text.IsTrimmed registry ∧ Text.IsTrimmed version
        ∧ s = registry ++ "/" ++ name ++ ":" ++ version) := by
  refine ⟨fun s => inProject_eq_ok_iff, fun e => inProject_eq_error_iff, ?_, ?_⟩
  · intro habsent
    cases h : inProject fs root name with
    | error e => exact ⟨e, rfl⟩
    | ok s =>
      obtain ⟨registry, version, hregistry, hversion, _⟩ := inProject_eq_ok_iff.1 h
      have hr := Files.has_of_readText hregistry
      have hv := Files.has_of_readText hversion
      simp [hr, hv] at habsent
  · intro hvisible s hs
    obtain ⟨registry, version, hregistry, hversion, rfl⟩ := inProject_eq_ok_iff.1 hs
    have hr := hvisible _ (by simp) _ hregistry
    have hv := hvisible _ (by simp) _ hversion
    refine ⟨_, _, Files.readTrimmed_of_readText hregistry, Files.readTrimmed_of_readText hversion,
      Text.isTrimmed_trim_iff.2 hr, Text.isTrimmed_trim_iff.2 hv, rfl⟩

/-- A file of the registry that is there and blank leaves a reference without a registry. -/
theorem blank_registry_is_left_out :
    let fs : Files := ⟨.ofEntries [
      (["taskcluster", "docker", "REGISTRY"], .file " \n".toUTF8),
      (["taskcluster", "docker", "decision", "VERSION"], .file "1".toUTF8)], []⟩
    ∃ s, inProject fs ⟨"."⟩ "decision" = .ok s
      ∧ ¬ ∃ registry version, registry ≠ "" ∧ version ≠ ""
        ∧ s = registry ++ "/" ++ "decision" ++ ":" ++ version := by
  intro fs
  have hs : (inProject fs ⟨"."⟩ "decision").toOption = some "/decision:1" := by
    decide +kernel
  refine ⟨_, Result.toOption_eq_some_iff.1 hs, ?_⟩
  rintro ⟨registry, version, hregistry, hversion, heq⟩
  -- Two parts that are not empty would make the reference longer than it is.
  have hlength := congrArg String.length heq
  have hr : registry.length ≠ 0 := by simpa using hregistry
  have hv : version.length ≠ 0 := by simpa using hversion
  simp only [String.length_append] at hlength
  have hfixed : "/decision:1".length = 11 ∧ "/".length = 1 ∧ "decision".length = 8
    ∧ ":".length = 1 := by decide
  omega

end Image

end ActionRegistry
