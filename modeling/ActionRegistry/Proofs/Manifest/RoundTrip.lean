import ActionRegistry.Proofs.Decoding.Record
import ActionRegistry.Proofs.Json.Decode
import ActionRegistry.Proofs.Json.Fields
import ActionRegistry.Proofs.Manifest.Contents
import ActionRegistry.Proofs.Trigger.Dispatch

/-!
# Manifests and invocations that are written and read

A field that may be absent is written as its value, and a null is read as its absence. So a manifest
or an invocation reads back as it was just if no such field holds a null that is there. None does
after reading, since reading makes nothing of a null. And none does in a manifest that was rendered,
since registration takes no schema but an object or a truth value.
-/

namespace ActionRegistry

open Decoding Fields

/-- A field that may be absent is never read as a null that is there. -/
theorem optional_ne_null {name : String} {values : String → Option Json} {found : Option Json}
    (h : (Fields.optional name none (Json.asOption .ok)).build values = .ok found) :
    found ≠ some .null := by
  rcases build_optional_eq_ok.1 h with ⟨_, rfl⟩ | ⟨v, _, hv⟩
  · nofun
  · exact Json.asOption_ok_ne_null hv

/-! ### Entries -/

namespace ManifestEntry

theorem isChecked_fields : record.fields.IsChecked :=
  (((((((isChecked_required _ _).map _).seq (isChecked_required _ _)).seq
    (isChecked_required _ _)).seq (isChecked_required _ _)).seq (isChecked_required _ _)).seq
    (isChecked_optional _ _ _)).seq (isChecked_required _ _)

theorem schema_ne_null_of_build {values : String → Option Json} {e : ManifestEntry}
    (h : record.fields.build values = .ok e) : e.schema ≠ some .null := by
  simp only [record, build_seq_eq_ok, build_map_eq_ok] at h
  obtain ⟨_, task, ⟨_, schema, ⟨_, context, ⟨_, description, ⟨_, title, ⟨_, name, ⟨_, _, rfl⟩,
    _, rfl⟩, _, rfl⟩, _, rfl⟩, _, rfl⟩, hschema, rfl⟩, _, rfl⟩ := h
  exact optional_ne_null hschema

theorem names_record :
    record.names = ["kind", "name", "title", "description", "context", "schema", "task"] := rfl

theorem asMap_tagsToJson (tags : TagSet) :
    Json.asMap Json.asText (tagsToJson tags) = .ok tags :=
  Json.asMap_object (fun _ => rfl : ∀ s, Json.asText (.string s) = .ok s) tags

/-- An entry reads back if its schema is no null that is there. -/
theorem asRecord_toJson {e : ManifestEntry} (h : e.schema ≠ some .null) :
    Json.asRecord record e.toJson = .ok e := by
  obtain ⟨name, title, description, context, schema, task⟩ := e
  have hkind : ∃ u, decodeKind (.string "task") = .ok u := ⟨(), rfl⟩
  have htext : ∀ s, Json.asText (.string s) = .ok s := fun _ => rfl
  have hcontext : Json.asList (Json.asMap Json.asText) (.array (context.map tagsToJson))
      = .ok context := Json.asList_array fun tags _ => asMap_tagsToJson tags
  have hschema : ∀ v, schema = some v → Json.asOption .ok v = .ok (some v) := by
    rintro v rfl
    exact Json.asOption_getD h
  refine Record.ofEntries_eq_ok (fun _ => rfl) isChecked_fields ?_ ?_ ?_
  · cases schema <;> simp
  · cases schema <;> simp [names_record]
  · cases schema <;>
      simp [record, lookup_cons_eq_ite, hkind, htext, hcontext, hschema]

@[simp] theorem field?_schema_toJson (e : ManifestEntry) : e.toJson.field? "schema" = e.schema := by
  cases hschema : e.schema <;> simp [toJson, Json.field?, lookup_cons_eq_ite, hschema]

@[simp] theorem field?_name_toJson (e : ManifestEntry) :
    e.toJson.field? "name" = some (.string e.name) := by
  simp [toJson, Json.field?, lookup_cons_eq_ite]

end ManifestEntry

/-! ### Manifests -/

theorem Parameters.ofJson_toJson (p : Parameters) : ofJson p.toJson = .ok p := by
  have hvalues : ofMap? p.values = .ok p := by
    have hp := ofMap_values p
    rw [ofMap] at hp
    cases hfound : ofMap? p.values with
    | error key => simp [hfound] at hp
    | ok p' => simpa [hfound] using hp
  rw [ofJson, toJson, Json.asMap_ofMap, Result.ok_bind, hvalues]
  rfl

namespace Manifest

theorem asRecord_scope (p : Parameters) :
    Json.asRecord scope (.object [("parameters", p.toJson)]) = .ok p := by
  refine Record.ofEntries_eq_ok (fun _ => rfl) (isChecked_required _ _) (by simp)
    (by simp [Record.names, scope, required]) ?_
  simp [scope, p.ofJson_toJson]

theorem isChecked_fields : record.fields.IsChecked :=
  (((isChecked_required _ _).map _).seq (isChecked_required _ _)).seq (isChecked_required _ _)

theorem names_record : record.names = ["version", "variables", "actions"] := rfl

def IsReadable (m : Manifest) : Prop := ∀ e ∈ m.entries, e.schema ≠ some .null

theorem ofJson_toJson {m : Manifest} (h : m.IsReadable) : ofJson m.toJson = .ok m := by
  have hentries : Json.asList (Json.asRecord ManifestEntry.record)
      (.array (m.entries.map ManifestEntry.toJson)) = .ok m.entries :=
    Json.asList_array fun e he => ManifestEntry.asRecord_toJson (h e he)
  refine Record.ofEntries_eq_ok (fun _ => rfl) isChecked_fields (by simp)
    (by simp [names_record]) ?_
  simp [record, lookup_cons_eq_ite, Json.asUInt32_ofInt, asRecord_scope, hentries]

theorem isReadable_of_ofJson {v : Json} {m : Manifest} (h : ofJson v = .ok m) : m.IsReadable := by
  obtain ⟨values, hbuild⟩ := build_of_asRecord h
  simp only [record, build_seq_eq_ok, build_map_eq_ok, build_required_eq_ok] at hbuild
  obtain ⟨_, entries, ⟨_, _, ⟨_, _, rfl⟩, _, rfl⟩, ⟨list, _, hlist⟩, rfl⟩ := hbuild
  intro e he
  obtain ⟨item, hitem⟩ := Json.exists_of_asList hlist he
  obtain ⟨values, hentry⟩ := build_of_asRecord hitem
  exact ManifestEntry.schema_ne_null_of_build hentry

theorem field?_actions_toJson (m : Manifest) :
    m.toJson.field? "actions" = some (.array (m.entries.map ManifestEntry.toJson)) := by
  simp [toJson, Json.field?, lookup_cons_eq_ite]

theorem exists_ofAction {r : Registry} {ctx : BuildContext} {m : Manifest}
    (hm : ofRegistry r ctx = .ok m) {e : ManifestEntry} (he : e ∈ m.entries) :
    ∃ a ∈ r.actions, e = .ofAction a e.task := by
  obtain ⟨a, ha, hentry, _⟩ :=
    (lists_of_entriesOf (ofRegistry_eq_ok_iff.1 hm).2.2).exists_ofAction he
  exact ⟨a, r.isStableSort_sortedActions.perm.subset ha, hentry⟩

/-- Registration takes no null for a schema, so no manifest that is rendered has one. -/
theorem isReadable_of_ofRegistry {b : Bench} {past : List Registration} (hb : Reached b past)
    {ctx : BuildContext} {m : Manifest} (hm : ofRegistry b.registry ctx = .ok m) :
    m.IsReadable := by
  intro e he hnull
  obtain ⟨a, ha, hentry⟩ := exists_ofAction hm he
  have hschema : IsSchema a.schema := (hb.isChecked_of_mem ha).schema
  have ha : a.schema = some .null := by
    rw [hentry] at hnull
    exact hnull
  rw [ha] at hschema
  cases hschema

end Manifest

/-! ### Invocations -/

namespace Invocation

theorem isChecked_fields : record.fields.IsChecked :=
  (((((((isChecked_required _ _).map _).seq (isChecked_optional _ _ _)).seq
    (isChecked_optional _ _ _)).seq (isChecked_optional _ _ _)).seq (isChecked_required _ _)).seq
    (isChecked_required _ _)).seq (isChecked_optional _ _ _)

theorem names_record : record.names
    = ["task_group_id", "task_id", "task", "input", "callback", "parameters", "test"] := rfl

/-- An invocation has no null for its task and none for its input. -/
structure IsReadable (i : Invocation) : Prop where
  task : i.task ≠ some .null
  input : i.input ≠ some .null

theorem asOption_orNull {v : Option Json} (h : v ≠ some .null) :
    Json.asOption .ok (orNull id v) = .ok v := by
  have hv : orNull id v = v.getD .null := by cases v <;> rfl
  rw [hv, Json.asOption_getD h]

theorem ofJson_toJson {i : Invocation} (h : i.IsReadable) : ofJson i.toJson = .ok i := by
  obtain ⟨taskGroupId, taskId, task, input, callback, parameters, isTest⟩ := i
  have htext : ∀ s, Json.asText (.string s) = .ok s := fun _ => rfl
  have hbool : Json.asBool (.bool isTest) = .ok isTest := rfl
  have htaskId : Json.asOption Json.asText (orNull .string taskId) = .ok taskId := by
    cases taskId <;> rfl
  refine Record.ofEntries_eq_ok (fun _ => rfl) isChecked_fields (by simp)
    (by simp [names_record]) ?_
  simp [record, lookup_cons_eq_ite, htext, hbool, htaskId, asOption_orNull h.task,
    asOption_orNull h.input, Json.asMap_ofMap]

theorem isReadable_of_ofJson {v : Json} {i : Invocation} (h : ofJson v = .ok i) :
    i.IsReadable := by
  obtain ⟨values, hbuild⟩ := build_of_asRecord h
  simp only [record, build_seq_eq_ok, build_map_eq_ok] at hbuild
  obtain ⟨_, isTest, ⟨_, parameters, ⟨_, callback, ⟨_, input, ⟨_, task, ⟨_, taskId, ⟨group, _, rfl⟩,
    _, rfl⟩, htask, rfl⟩, hinput, rfl⟩, _, rfl⟩, _, rfl⟩, _, rfl⟩ := hbuild
  exact ⟨optional_ne_null htask, optional_ne_null hinput⟩

end Invocation

/-- **What is written reads back,** be it read from a JSON value in whichever form, or rendered with
a registry that is reached. -/
theorem written_value_reads_back :
    (∀ v m, Manifest.ofJson v = .ok m → Manifest.ofJson m.toJson = .ok m)
    ∧ (∀ v i, Invocation.ofJson v = .ok i → Invocation.ofJson i.toJson = .ok i)
    ∧ ∀ b past, Reached b past → ∀ ctx m, Manifest.ofRegistry b.registry ctx = .ok m →
        Manifest.ofJson m.toJson = .ok m
        ∧ ∃ items, m.toJson.field? "actions" = some (.array items)
          ∧ List.Forall₂ (fun e item => ∃ a, b.registry.action? e.name = some a
              ∧ item.field? "name" = some (.string a.name) ∧ item.field? "schema" = a.schema)
            m.entries items := by
  refine ⟨fun v m h => ?_, fun v i h => ?_, fun b past hb ctx m hm => ⟨?_, ?_⟩⟩
  · exact Manifest.ofJson_toJson (Manifest.isReadable_of_ofJson h)
  · exact Invocation.ofJson_toJson (Invocation.isReadable_of_ofJson h)
  · exact Manifest.ofJson_toJson (Manifest.isReadable_of_ofRegistry hb hm)
  · refine ⟨m.entries.map ManifestEntry.toJson, Manifest.field?_actions_toJson m, ?_⟩
    rw [List.forall₂_map_right_iff]
    refine List.forall₂_same.2 fun e he => ?_
    obtain ⟨a, ha, hentry⟩ := Manifest.exists_ofAction hm he
    have hname : e.name = a.name := congrArg ManifestEntry.name hentry
    have hschema : e.schema = a.schema := congrArg ManifestEntry.schema hentry
    refine ⟨a, ?_, ?_, ?_⟩
    · rw [hname]
      exact Registry.action?_eq_some_of_nodup hb.isOf.2.names ha
    · rw [ManifestEntry.field?_name_toJson, hname]
    · rw [ManifestEntry.field?_schema_toJson, hschema]

/-- A manifest in arrays, an invocation with a name that is no field, and the manifest of a callback
with a schema. -/
theorem written_value_reads_back_from_arrays :
    let manifest := Json.array [.ofInt 1, .array [BuildContext.sample.parameters.toJson],
      .array [.array [.string "task", .string "clean", .string "t", .string "d",
        .array [.object [("kind", .string "test")]], .null, .null]]]
    let invocation := Json.object [("callback", .string "retry"), ("extra", .ofInt 1),
      ("input", .null), ("parameters", .object []), ("task", .bool false),
      ("task_group_id", .string "group")]
    let schema := Json.object [("type", .string "object")]
    let describe := Step.describeCallback "hook"
      ⟨"again", "Retry", "Runs it again.", 1, [], some schema⟩ "rt" fun _ => true
    let apply := Step.applyCallback "hook"
      ⟨"hooks::retry", fun _ modes => ⟨.ok (), modes, [], []⟩⟩ "src/hooks.rs"
    let b := apply.attempt (describe.attempt .empty)
    (∃ m, Manifest.ofJson manifest = .ok m ∧ m.entries.map (·.name) = ["clean"]
      ∧ Manifest.ofJson m.toJson = .ok m)
    ∧ (∃ i, Invocation.ofJson invocation = .ok i ∧ i.callback = "retry"
      ∧ Invocation.ofJson i.toJson = .ok i)
    ∧ ∃ m items, Manifest.ofRegistry b.registry .sample = .ok m
      ∧ Manifest.ofJson m.toJson = .ok m ∧ m.toJson.field? "actions" = some (.array items)
      ∧ items.map (·.field? "schema") = [some schema] := by
  intro manifest invocation schema describe apply b
  obtain ⟨hmanifest, hinvocation, hrendered⟩ := written_value_reads_back
  refine ⟨?_, ⟨_, rfl, rfl, hinvocation invocation _ rfl⟩, ?_⟩
  · have hnames : (Manifest.ofJson manifest).toOption.map (fun m => m.entries.map (·.name))
        = some ["clean"] := by decide +kernel
    obtain ⟨m, hm, hnames⟩ := Result.toOption_map_eq_some_iff.1 hnames
    exact ⟨m, hm, hnames, hmanifest manifest m hm⟩
  · have hnames : (Manifest.ofRegistry b.registry .sample).toOption.map
        (fun m => m.entries.map (·.name)) = some ["again"] := by decide +kernel
    have hschemas : ∀ a ∈ b.registry.actions, a.schema = some schema := by decide +kernel
    obtain ⟨m, hm, hnames⟩ := Result.toOption_map_eq_some_iff.1 hnames
    have hreached : Reached b _ := .step (.step .empty describe) apply
    obtain ⟨hread, items, hitems, hentries⟩ := hrendered b _ hreached .sample m hm
    obtain ⟨e, hentry, _⟩ := List.map_eq_singleton_iff.1 hnames
    rw [hentry] at hentries
    obtain ⟨item, rest, ⟨a, ha, _, hschema⟩, hrest, rfl⟩ := List.forall₂_cons_left_iff.1 hentries
    obtain rfl : rest = [] := List.forall₂_nil_left_iff.1 hrest
    refine ⟨m, [item], hm, hread, hitems, ?_⟩
    rw [List.map_singleton, hschema, hschemas a (List.mem_of_find?_eq_some ha)]

end ActionRegistry
