import ActionRegistry.Proofs.Files.Atomic
import ActionRegistry.Proofs.Yaml.RoundTrip
import ActionRegistry.Task.Config

/-!
# Configurations that are saved and loaded

A field is read under the name under which it is written, and where it is not written it has its
default. So a file that holds some fields of a configuration gives these fields, whatever else it
holds under names of no field, and a file that was saved gives the configuration back.
-/

namespace ActionRegistry.TaskConfig

open Decoding Fields

/-- A configuration in the fields of some names, with the default in all others. -/
def within (c : TaskConfig) (names : List String) : TaskConfig where
  trustDomain := if "trust_domain" ∈ names then c.trustDomain else default.trustDomain
  owner := if "owner" ∈ names then c.owner else default.owner
  provisionerId := if "provisioner_id" ∈ names then c.provisionerId else default.provisionerId
  baseRepository := if "base_repository" ∈ names then c.baseRepository else default.baseRepository
  deadline := if "deadline" ∈ names then c.deadline else default.deadline
  expires := if "expires" ∈ names then c.expires else default.expires
  maxRunTime := if "max_run_time" ∈ names then c.maxRunTime else default.maxRunTime
  image := if "image" ∈ names then c.image else default.image
  callbackCommand :=
    if "callback_command" ∈ names then c.callbackCommand else default.callbackCommand

theorem within_nil (c : TaskConfig) : c.within [] = default := by
  simp [within, default]

def fieldNames : List String :=
  ["trust_domain", "owner", "provisioner_id", "base_repository", "deadline", "expires",
    "max_run_time", "image", "callback_command"]

theorem within_fieldNames (c : TaskConfig) : c.within fieldNames = c := by
  simp [within, fieldNames]

theorem map_fst_toFields (c : TaskConfig) : c.toFields.map (·.1) = fieldNames := rfl

/-- The fields of a configuration that have some names. -/
def fieldsWithin (c : TaskConfig) (names : List String) : List (String × Yaml.Writer.Field) :=
  c.toFields.filter (·.1 ∈ names)

theorem fieldsWithin_fieldNames (c : TaskConfig) : c.fieldsWithin fieldNames = c.toFields := by
  apply List.filter_eq_self.2
  intro f hf
  have hname : f.1 ∈ c.toFields.map (·.1) := List.mem_map_of_mem hf
  simpa [map_fst_toFields] using hname

section Record

variable {ν : Type} {text : ν → Decoded String} {number : ν → Decoded UInt32}

theorem names_record : (record text number).names = fieldNames := rfl

theorem isChecked_fields : (fields text number).IsChecked :=
  (((((((((isChecked_optional _ _ _).map _).seq (isChecked_optional _ _ _)).seq
    (isChecked_optional _ _ _)).seq (isChecked_optional _ _ _)).seq (isChecked_optional _ _ _)).seq
    (isChecked_optional _ _ _)).seq (isChecked_optional _ _ _)).seq (isChecked_optional _ _ _)).seq
    (isChecked_optional _ _ _)

end Record

/-! ### Reading -/

theorem build_optional_within {ν α : Type} {name : String} {names : List String}
    {initial value : α} {decode : ν → Decoded α} {values : String → Option ν}
    (hin : name ∈ names → ∃ v, values name = some v ∧ decode v = .ok value)
    (hout : name ∉ names → values name = none) :
    (optional name initial decode).build values
      = .ok (if name ∈ names then value else initial) := by
  rw [build_optional_eq_ok]
  by_cases hname : name ∈ names
  · rw [if_pos hname]
    exact .inr (hin hname)
  · rw [if_neg hname]
    exact .inl ⟨hout hname, rfl⟩

section Found

variable {c : TaskConfig} {names : List String} {targets : Yaml.Targets}
  {values : String → Option Yaml.Node}

/-- What is found under each name stands for the field of a configuration, if the name is among
some, and else there is nothing. -/
structure IsFound (c : TaskConfig) (names : List String) (targets : Yaml.Targets)
    (values : String → Option Yaml.Node) : Prop where
  inside : ∀ name f, (name, f) ∈ c.toFields → name ∈ names →
    ∃ n, values name = some n ∧ targets.Stands n f
  outside : ∀ name, name ∉ names → values name = none

theorem IsFound.build_text (h : c.IsFound names targets values) {name s : String}
    (initial : String) (hfield : (name, .text s) ∈ c.toFields) :
    (optional name initial fun n => Yaml.Document.text "a string" (targets.follow n)).build values
      = .ok (if name ∈ names then s else initial) := by
  refine build_optional_within (fun hname => ?_) (h.outside name)
  obtain ⟨n, hn, hs⟩ := h.inside name _ hfield hname
  exact ⟨n, hn, hs.text_eq_ok _⟩

theorem IsFound.build_number (h : c.IsFound names targets values) {name : String} {k : UInt32}
    (initial : UInt32) (hfield : (name, .number k.toNat) ∈ c.toFields) :
    (optional name initial fun n => Yaml.Document.uint32 (targets.follow n)).build values
      = .ok (if name ∈ names then k else initial) := by
  refine build_optional_within (fun hname => ?_) (h.outside name)
  obtain ⟨n, hn, hk⟩ := h.inside name _ hfield hname
  exact ⟨n, hn, hk.uint32_eq_ok⟩

theorem isFound_of_fieldsWithin
    (hin : ∀ name f, (name, f) ∈ c.fieldsWithin names →
      ∃ n, values name = some n ∧ targets.Stands n f)
    (hout : ∀ name, name ∉ (c.fieldsWithin names).map (·.1) → values name = none) :
    c.IsFound names targets values := by
  refine ⟨fun name f hfield hname => ?_, fun name hname => ?_⟩
  · exact hin name f (List.mem_filter.2 ⟨hfield, by simpa using hname⟩)
  · apply hout
    intro hmem
    obtain ⟨f, hf, rfl⟩ := List.mem_map.1 hmem
    exact hname (by simpa using (List.mem_filter.1 hf).2)

end Found

/-- A document that holds some fields of a configuration is read as the configuration in these
fields. -/
theorem ofDocument_of_isMapping {c : TaskConfig} {names : List String} {d : Yaml.Document}
    (h : d.IsMapping fieldNames (c.fieldsWithin names)) : ofDocument d = .ok (c.within names) := by
  have hdistinct : (c.toFields.map (·.1)).Nodup := by
    rw [map_fst_toFields]
    decide
  refine h.record_eq_ok rfl rfl isChecked_fields ?_ fun values hin hout => ?_
  · exact hdistinct.sublist (List.filter_sublist.map _)
  · have hfound : c.IsFound names (.ofDocument d) values := isFound_of_fieldsWithin hin hout
    refine build_seq_ok (build_seq_ok (build_seq_ok (build_seq_ok (build_seq_ok (build_seq_ok
      (build_seq_ok (build_seq_ok (build_map_ok ?_) ?_) ?_) ?_) ?_) ?_) ?_) ?_) ?_
    · exact hfound.build_text default.trustDomain (by simp [toFields])
    · exact hfound.build_text default.owner (by simp [toFields])
    · exact hfound.build_text default.provisionerId (by simp [toFields])
    · exact hfound.build_text default.baseRepository (by simp [toFields])
    · exact hfound.build_text default.deadline (by simp [toFields])
    · exact hfound.build_text default.expires (by simp [toFields])
    · exact hfound.build_number default.maxRunTime (by simp [toFields])
    · exact hfound.build_text default.image (by simp [toFields])
    · exact hfound.build_text default.callbackCommand (by simp [toFields])

theorem ofText_of_isMapping {c : TaskConfig} {names : List String} {text : String}
    {d : Yaml.Document} (htext : Yaml.Document.ofText text = [d])
    (h : d.IsMapping fieldNames (c.fieldsWithin names)) : ofText text = .ok (c.within names) := by
  rw [ofText, htext, Yaml.Document.only, ofDocument_of_isMapping h, Result.ok_bind]
  simp [h.1]

theorem isKey_of_mem_fieldNames {name : String} (h : name ∈ fieldNames) :
    Yaml.Scanner.IsKey name.toList := by
  have hall : ∀ name ∈ fieldNames, name.toList ≠ [] ∧ name.toList.all Yaml.isKeyChar = true
      ∧ name.toList.length ≤ 1024 := by
    decide
  obtain ⟨hne, hletters, hshort⟩ := hall name h
  exact ⟨hne, List.all_eq_true.1 hletters, hshort⟩

/-- Some fields of a configuration are written as one document, from which they are read back. -/
theorem ofText_mapping {c : TaskConfig} {names : List String} (hne : c.fieldsWithin names ≠ []) :
    ofText (Yaml.Writer.mapping (c.fieldsWithin names)) = .ok (c.within names) := by
  have hknown : ∀ f ∈ c.fieldsWithin names, f.1 ∈ fieldNames := by
    intro f hf
    rw [← map_fst_toFields c]
    exact List.mem_map_of_mem (List.mem_of_mem_filter hf)
  obtain ⟨d, htext, hd⟩ := Yaml.Document.isMapping_of_mapping fieldNames hne
    (fun f hf => isKey_of_mem_fieldNames (hknown f hf)) hknown
  exact ofText_of_isMapping htext hd

theorem ofText_toText (c : TaskConfig) : ofText c.toText = .ok c := by
  have hne : c.fieldsWithin fieldNames ≠ [] := by
    rw [fieldsWithin_fieldNames]
    exact List.cons_ne_nil _ _
  have htext := ofText_mapping hne
  rwa [fieldsWithin_fieldNames, within_fieldNames] at htext

/-! ### The file -/

variable {fs after : Files} {root : Path}

theorem load_of_absent (h : fs.has root.configFile = false) : load fs root = .ok default := by
  simp [load, h]

theorem load_of_readText {text : String} {c : TaskConfig}
    (hread : fs.readText root.configFile = .ok text) (htext : ofText text = .ok c) :
    load fs root = .ok c := by
  have hhas : fs.has root.configFile = true := Files.has_of_readText hread
  simp [load, hhas, hread, htext, Result.ofFile]

/-- **What is saved is loaded, and what is not written has its default,** whatever else the file
holds. -/
theorem load_returns_what_was_written (c : TaskConfig) :
    (∀ fs root after, c.save fs root = (.ok (), after) →
      load after root = .ok c
      ∧ ∃ place, after.LeadsTo root.configFile place
        ∧ ∀ q content, q ≠ place →
          (after.tree.get? q = some (.file content) ↔ fs.tree.get? q = some (.file content)))
    ∧ (∀ fs root names text d, fs.readText root.configFile = .ok text →
      Yaml.Document.ofText text = [d] → d.IsMapping fieldNames (c.fieldsWithin names) →
      load fs root = .ok (c.within names))
    ∧ ∀ fs root, fs.has root.configFile = false → load fs root = .ok (c.within []) := by
  refine ⟨fun fs root after hsave => ?_, fun fs root names text d hread htext hd => ?_,
    fun fs root habsent => ?_⟩
  · rcases fs.writeWhole_cases root.configFile c.toText.toUTF8 with
      ⟨e, mid, hwrite, _⟩ | ⟨mid, place, hwrite, h⟩
    · cases hsave.symm.trans hwrite
    · cases hsave.symm.trans hwrite
      exact ⟨load_of_readText h.readText (ofText_toText c), place, h.leads,
        fun q content hq => h.file_iff hq⟩
  · exact load_of_readText hread (ofText_of_isMapping htext hd)
  · rw [within_nil]
    exact load_of_absent habsent

/-- A file with one field and another name is loaded, and a configuration is saved over it. -/
theorem configuration_is_saved_over_partial_file :
    let c : TaskConfig := { default with owner := "me", maxRunTime := 60 }
    let fs : Files := ⟨.ofEntries [(["taskcluster", "actions.yml"],
      .file "extra: [1]\nowner: me\n".toUTF8)], []⟩
    load fs ⟨"."⟩ = .ok { default with owner := "me" }
      ∧ ∃ after, c.save fs ⟨"."⟩ = (.ok (), after) ∧ load after ⟨"."⟩ = .ok c := by
  intro c fs
  obtain ⟨hsaved, hfields, _⟩ := load_returns_what_was_written c
  have hread : fs.readText (Path.configFile ⟨"."⟩) = .ok "extra: [1]\nowner: me\n" :=
    Result.toOption_eq_some_iff.1 (by decide +kernel)
  have htokens : Yaml.Token.ofText "extra: [1]\nowner: me\n".toList = [.blockMappingStart,
      .key, .scalar "extra".toList .plain,
      .value, .flowSequenceStart, .scalar "1".toList .plain, .flowSequenceEnd,
      .key, .scalar "owner".toList .plain, .value, .scalar "me".toList .plain,
      .blockEnd, .streamEnd] := by
    decide +kernel
  obtain ⟨d, htext, hd⟩ : ∃ d, Yaml.Document.ofText "extra: [1]\nowner: me\n" = [d]
      ∧ d.IsMapping fieldNames (c.fieldsWithin ["owner"]) := by
    have howner : c.fieldsWithin ["owner"] = [("owner", .text "me")] := rfl
    rw [Yaml.Document.ofText, htokens, howner]
    refine ⟨_, rfl, rfl, none, none, _, _, rfl, .refl _, ?_⟩
    exact .other ⟨none, none, .plain, rfl⟩ (by decide) rfl
      (.field ⟨none, none, .plain, rfl⟩ (by decide) ⟨none, none, .plain, rfl⟩ .nil)
  have hloaded : load fs ⟨"."⟩ = .ok (c.within ["owner"]) :=
    hfields fs ⟨"."⟩ ["owner"] _ d hread htext hd
  have hwithin : c.within ["owner"] = { default with owner := "me" } := by decide
  have hok : (c.save fs ⟨"."⟩).1 = .ok () := by decide +kernel
  have hsave : c.save fs ⟨"."⟩ = (.ok (), (c.save fs ⟨"."⟩).2) := Prod.ext hok rfl
  exact ⟨hwithin ▸ hloaded, _, hsave, (hsaved _ _ _ hsave).1⟩

end ActionRegistry.TaskConfig
