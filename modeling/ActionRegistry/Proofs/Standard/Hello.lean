import Mathlib.Data.Set.List
import ActionRegistry.Proofs.Decoding.Record
import ActionRegistry.Proofs.Json.Schema
import ActionRegistry.Standard.Hello

/-!
# What the hello action can be told

The input of the hello action is described twice: by the schema that is offered to users, and by the
record that it is read as. They agree on objects. A record may also be written as an array of its
values, which the schema does not allow; so greetings are accepted that nothing announces.
-/

namespace ActionRegistry.Hello

open Decoding Json

/-- An object of a greeting and a name. Both are texts, and neither has to be there. -/
def IsGreeting (v : Json) : Prop := ∃ fields, v = .object fields ∧ (fields.map (·.1)).Nodup
  ∧ ∀ e ∈ fields, (e.1 = "greeting" ∨ e.1 = "name") ∧ ∃ s, e.2 = .string s

/-- An array of a greeting and a name. The name may be missing, or both. -/
def IsPositional (v : Json) : Prop :=
  ∃ texts : List String, texts.length ≤ 2 ∧ v = .array (texts.map .string)

/-- The text that a value gives under a name or, if it is an array, in a position. -/
def given? (name : String) (position : Nat) : Json → Option String
  | .object fields => (fields.lookup name).bind Json.text?
  | .array items => items[position]?.bind Json.text?
  | _ => none

/-- What is said for an input, with the defaults for what is not given. -/
def Input.said (v : Json) : Input where
  greeting := (given? "greeting" 0 v).getD "Hello"
  name := (given? "name" 1 v).getD "world"

/-! ### The schema -/

theorem schema_eq : schema = closedSchema [
    ("greeting", textSchema "Hello" "Greeting" "Word to greet with"),
    ("name", textSchema "world" "Name" "Name to greet")] := by
  decide +kernel

theorem allows_textSchema_iff {default title description : String} {v : Json} :
    allows (textSchema default title description) v = true ↔ ∃ s, v = .string s := by
  have hdefault : "default" < "type" ∧ ¬"title" < "default" ∧ ¬"description" < "default" := by
    decide +kernel
  have htitle : "title" < "type" ∧ "description" < "title" := by decide +kernel
  have hsorted : textSchema default title description = .object [("default", .string default),
      ("description", .string description), ("title", .string title),
      ("type", .string "string")] := by
    simp [textSchema, ofFields, putEntry, hdefault, htitle]
  have hallows : allows (textSchema default title description) v = true
      ↔ v.typeName = "string" := by
    rw [hsorted]
    simp [allows, keywordsAllow, text?]
  rw [hallows]
  constructor
  · exact eq_string_of_typeName
  · rintro ⟨s, hs⟩
    rw [hs, typeName]

theorem isGreeting_object_iff {fields : List (String × Json)} : IsGreeting (.object fields) ↔
    (fields.map (·.1)).Nodup ∧ (∀ e ∈ fields, e.1 ∈ ["greeting", "name"])
      ∧ ∀ name ∈ ["greeting", "name"], ∀ v, fields.lookup name = some v → ∃ s, v = .string s := by
  constructor
  · rintro ⟨fields', hv, hdistinct, hgiven⟩
    obtain rfl : fields = fields' := Json.object.inj hv
    have hknown : ∀ e ∈ fields, e.1 ∈ ["greeting", "name"] := by
      intro e he
      simpa using (hgiven e he).1
    exact ⟨hdistinct, hknown, (forall_lookup_iff hdistinct hknown).2 fun e he => (hgiven e he).2⟩
  · rintro ⟨hdistinct, hknown, htexts⟩
    refine ⟨fields, rfl, hdistinct, fun e he => ⟨by simpa using hknown e he, ?_⟩⟩
    exact (forall_lookup_iff hdistinct hknown).1 htexts e he

/-- The schema allows the objects of a greeting and a name. -/
theorem allows_schema_iff {v : Json} (h : v.fieldNames.Nodup) :
    allows schema v = true ↔ IsGreeting v := by
  rw [schema_eq, allows_closedSchema_iff]
  cases v with
  | object fields =>
    rw [fieldNames] at h
    rw [isGreeting_object_iff]
    simp only [List.forall_mem_cons, allows_textSchema_iff]
    simp [h]
  | _ => simp [IsGreeting]

/-! ### The record -/

theorem asText_eq_ok_iff {v : Json} {s : String} : asText v = .ok s ↔ v = .string s := by
  cases v <;> simp [asText, wrongType]

theorem isChecked_fields : Input.record.fields.IsChecked :=
  ((Fields.isChecked_optional _ _ _).map _).seq (Fields.isChecked_optional _ _ _)

/-- A text that may be missing is told by the value that is there, and else by the default. -/
theorem build_optional_asText_iff {name default s : String} {values : String → Option Json} :
    (Fields.optional name default asText).build values = .ok s ↔
      (∀ v, values name = some v → ∃ t, v = .string t)
      ∧ ((values name).bind Json.text?).getD default = s := by
  rw [Fields.build_optional_eq_ok]
  simp only [asText_eq_ok_iff]
  cases values name with
  | none => simp
  | some v => cases v <;> simp [Json.text?]

theorem build_eq_ok_iff {values : String → Option Json} {i : Input} :
    Input.record.fields.build values = .ok i ↔
      (∀ name ∈ ["greeting", "name"], ∀ v, values name = some v → ∃ s, v = .string s)
      ∧ i = ⟨((values "greeting").bind Json.text?).getD "Hello",
        ((values "name").bind Json.text?).getD "world"⟩ := by
  simp only [Input.record, Fields.build_seq_eq_ok, Fields.build_map_eq_ok,
    build_optional_asText_iff, List.forall_mem_cons]
  constructor
  · rintro ⟨_, name, ⟨greeting, ⟨hgreeting, rfl⟩, rfl⟩, ⟨hname, rfl⟩, rfl⟩
    exact ⟨⟨hgreeting, hname, List.forall_mem_nil _⟩, rfl⟩
  · rintro ⟨⟨hgreeting, hname, _⟩, rfl⟩
    exact ⟨_, _, ⟨_, ⟨hgreeting, rfl⟩, rfl⟩, ⟨hname, rfl⟩, rfl⟩

theorem asRecord_object_eq_ok_iff {fields : List (String × Json)} {i : Input} :
    (Json.object fields).asRecord Input.record = .ok i ↔
      IsGreeting (.object fields) ∧ i = .said (.object fields) := by
  have hname : ∀ key, reading.name key = .ok key := fun _ => rfl
  rw [asRecord, Record.ofEntries_eq_ok_iff rfl isChecked_fields, isGreeting_object_iff]
  simp only [Record.reads_iff_eq hname, exists_eq_left', build_eq_ok_iff]
  rw [and_assoc, and_assoc]
  rfl

theorem isPositional_array_iff {items : List Json} :
    IsPositional (.array items) ↔ items.length ≤ 2 ∧ ∀ v ∈ items, ∃ s, v = .string s := by
  constructor
  · rintro ⟨texts, hlength, hv⟩
    obtain rfl : items = texts.map .string := Json.array.inj hv
    exact ⟨by simpa using hlength, by simp⟩
  · rintro ⟨hlength, htexts⟩
    have hrange : items ∈ Set.range (List.map Json.string) := by
      rw [Set.range_list_map]
      intro v hv
      obtain ⟨s, hs⟩ := htexts v hv
      exact ⟨s, hs.symm⟩
    obtain ⟨texts, rfl⟩ := hrange
    exact ⟨texts, by simpa using hlength, rfl⟩

/-- The positions are those of the fields. -/
theorem lookup_zip_eq (items : List Json) :
    (["greeting", "name"].zip items).lookup "greeting" = items[0]?
      ∧ (["greeting", "name"].zip items).lookup "name" = items[1]? := by
  match items with
  | [] => exact ⟨rfl, rfl⟩
  | [_] => exact ⟨rfl, rfl⟩
  | _ :: _ :: _ => exact ⟨rfl, rfl⟩

theorem forall_lookup_zip_iff {items : List Json} {P : Json → Prop} (h : items.length ≤ 2) :
    (∀ name ∈ ["greeting", "name"], ∀ v, (["greeting", "name"].zip items).lookup name = some v →
      P v) ↔ ∀ v ∈ items, P v := by
  simp only [List.forall_mem_cons, lookup_zip_eq]
  match items, h with
  | [], _ => simp
  | [_], _ => simp
  | [_, _], _ => simp

theorem asRecord_array_eq_ok_iff {items : List Json} {i : Input} :
    (Json.array items).asRecord Input.record = .ok i ↔
      IsPositional (.array items) ∧ i = .said (.array items) := by
  have hnames : Input.record.names = ["greeting", "name"] := rfl
  have hrules : Input.record.fields.rules.length = 2 := rfl
  have hoptional : ∀ rule ∈ Input.record.fields.rules, rule.isRequired = false := by
    simp [Input.record, Fields.optional, (· <$> ·), Seq.seq]
  have hsaid : Input.said (.array items) = ⟨(items[0]?.bind Json.text?).getD "Hello",
      (items[1]?.bind Json.text?).getD "world"⟩ := rfl
  rw [asRecord, Record.ofItems_eq_ok_iff (by rw [hnames]; decide) isChecked_fields, hnames, hrules,
    build_eq_ok_iff, isPositional_array_iff, (lookup_zip_eq items).1, (lookup_zip_eq items).2,
    hsaid]
  constructor
  · rintro ⟨_, hlength, htexts, hi⟩
    exact ⟨⟨hlength, (forall_lookup_zip_iff hlength).1 htexts⟩, hi⟩
  · rintro ⟨⟨hlength, htexts⟩, hi⟩
    refine ⟨fun rule hrule => hoptional rule (List.mem_of_mem_drop hrule), hlength, ?_, hi⟩
    exact (forall_lookup_zip_iff hlength).2 htexts

/-- What is read is a greeting, as an object or in the form of an array. -/
theorem asRecord_eq_ok_iff {v : Json} {i : Input} :
    v.asRecord Input.record = .ok i ↔ (IsGreeting v ∨ IsPositional v) ∧ i = .said v := by
  cases v with
  | object fields => simp [asRecord_object_eq_ok_iff, IsPositional]
  | array items => simp [asRecord_array_eq_ok_iff, IsGreeting]
  | _ => simp [asRecord, wrongType, IsGreeting, IsPositional]

/-! ### What is accepted -/

/-- What is said comes from the input, and nothing else is told of the call. -/
theorem run_eq_of_ofCall {c : Call} {i : Input} (h : Input.ofCall c = .ok i) (modes : Modes) :
    run c modes = ⟨.ok (), modes, [event i modes], []⟩ := by
  rw [run, h]

theorem run_result_eq_ok_iff {c : Call} {modes : Modes} :
    (run c modes).result = .ok () ↔ ∃ i, Input.ofCall c = .ok i := by
  rw [run]
  cases Input.ofCall c <;> simp

/-- **What the hello action accepts:** objects of a greeting and a name, as its schema allows, and
arrays of them, which it does not allow. -/
theorem accepts_greetings (c : Call) (modes : Modes) (v : Json) :
    (∃ s, description.schema = some s
      ∧ (v.fieldNames.Nodup → (allows s v = true ↔ IsGreeting v)))
    ∧ ((run { c with input := some v } modes).result = .ok () ↔ IsGreeting v ∨ IsPositional v)
    ∧ ((∀ items, v ≠ .array items) →
        ((run { c with input := some v } modes).result = .ok () ↔ IsGreeting v))
    ∧ ((run { c with input := some v } modes).result = .ok () →
        (run { c with input := some v } modes).log = [⟨.info,
          (given? "greeting" 0 v).getD "Hello" ++ ", " ++ (given? "name" 1 v).getD "world",
          [("testing", .flag modes.isTesting)], none⟩])
    ∧ run { c with input := none } modes
      = ⟨.ok (), modes,
        [⟨.info, "Hello, world", [("testing", .flag modes.isTesting)], none⟩], []⟩ := by
  have hcall : Input.ofCall { c with input := some v } = v.asRecord Input.record := rfl
  have haccepted : (run { c with input := some v } modes).result = .ok ()
      ↔ IsGreeting v ∨ IsPositional v := by
    rw [run_result_eq_ok_iff, hcall]
    simp [asRecord_eq_ok_iff]
  have hsilent : Input.ofCall { c with input := none } = .ok .default := rfl
  refine ⟨⟨schema, rfl, allows_schema_iff⟩, haccepted, ?_, ?_, run_eq_of_ofCall hsilent modes⟩
  · intro hv
    rw [haccepted, or_iff_left]
    rintro ⟨texts, _, hitems⟩
    exact hv _ hitems
  · intro hok
    have hsaid : Input.ofCall { c with input := some v } = .ok (.said v) :=
      asRecord_eq_ok_iff.2 ⟨haccepted.1 hok, rfl⟩
    rw [run_eq_of_ofCall hsaid]
    rfl

/-- An array of one text is accepted, and the schema asks for an object. -/
theorem array_is_accepted :
    let values : SortedMap Json := .ofList (requiredKeys.map fun key => (key, .null))
    let p : Parameters := ⟨values, by decide +kernel⟩
    let v : Json := .array [.string "Hi"]
    (run ⟨p, some v, "g", none, none⟩ .live).result = .ok () ∧ allows schema v = false := by
  intro values p v
  refine ⟨run_result_eq_ok_iff.2 ?_, by decide +kernel⟩
  exact ⟨_, asRecord_eq_ok_iff.2 ⟨.inr ⟨["Hi"], by decide, rfl⟩, rfl⟩⟩

end ActionRegistry.Hello
