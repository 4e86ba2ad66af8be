import Mathlib.Data.List.Forall2
import ActionRegistry.Error
import ActionRegistry.Json.Decode
import ActionRegistry.Proofs.Checks

/-!
# Records that were written

A record that decodes was built from the values of its fields, in whichever form it came. So what
holds of all that can be built holds of all that is read. In the other direction, what is built of
some values passes the checks of their fields; so it is enough to know what the fields that were
written build. A strict record reads nothing else: its entries are fields, each at most once. An
open record passes over what is no field.
-/

namespace ActionRegistry.Decoding

variable {ν α β : Type}

namespace Fields

/-! ### Building -/

@[simp] theorem build_map_eq_ok {g : α → β} {x : Fields ν α} {values : String → Option ν} {b : β} :
    (g <$> x).build values = .ok b ↔ ∃ a, x.build values = .ok a ∧ g a = b := by
  change g <$> x.build values = .ok b ↔ _
  cases x.build values <;> simp

@[simp] theorem build_seq_eq_ok {f : Fields ν (α → β)} {x : Fields ν α} {values : String → Option ν}
    {b : β} : (f <*> x).build values = .ok b
      ↔ ∃ g a, f.build values = .ok g ∧ x.build values = .ok a ∧ g a = b := by
  change (f.build values >>= fun g => g <$> x.build values) = .ok b ↔ _
  cases f.build values <;> cases x.build values <;> simp

theorem build_map_ok {g : α → β} {x : Fields ν α} {values : String → Option ν} {a : α}
    (h : x.build values = .ok a) : (g <$> x).build values = .ok (g a) :=
  build_map_eq_ok.2 ⟨a, h, rfl⟩

theorem build_seq_ok {f : Fields ν (α → β)} {x : Fields ν α} {values : String → Option ν}
    {g : α → β} {a : α} (hf : f.build values = .ok g) (hx : x.build values = .ok a) :
    (f <*> x).build values = .ok (g a) :=
  build_seq_eq_ok.2 ⟨g, a, hf, hx, rfl⟩

@[simp] theorem build_required_eq_ok {name : String} {decode : ν → Decoded α}
    {values : String → Option ν} {a : α} :
    (required name decode).build values = .ok a ↔ ∃ v, values name = some v ∧ decode v = .ok a := by
  simp only [required]
  cases values name <;> simp

@[simp] theorem build_optional_eq_ok {name : String} {default : α} {decode : ν → Decoded α}
    {values : String → Option ν} {a : α} :
    (optional name default decode).build values = .ok a
      ↔ (values name = none ∧ default = a) ∨ ∃ v, values name = some v ∧ decode v = .ok a := by
  simp only [optional]
  cases values name <;> simp

/-! ### Checks -/

/-- What is built of some values is built of values that pass the checks. -/
def IsChecked (x : Fields ν α) : Prop :=
  ∀ values a, x.build values = .ok a →
    ∀ rule ∈ x.rules, ∀ v, values rule.name = some v → rule.check v = .ok ()

theorem isChecked_required (name : String) (decode : ν → Decoded α) :
    (required name decode).IsChecked := by
  intro values a ha rule hrule v hv
  obtain rfl := List.mem_singleton.1 hrule
  obtain ⟨w, hw, hdecode⟩ := build_required_eq_ok.1 ha
  obtain rfl := Option.some.inj (hv.symm.trans hw)
  simp [hdecode, Except.map]

theorem isChecked_optional (name : String) (default : α) (decode : ν → Decoded α) :
    (optional name default decode).IsChecked := by
  intro values a ha rule hrule v hv
  obtain rfl := List.mem_singleton.1 hrule
  rcases build_optional_eq_ok.1 ha with ⟨hnone, _⟩ | ⟨w, hw, hdecode⟩
  · cases hv.symm.trans hnone
  · obtain rfl := Option.some.inj (hv.symm.trans hw)
    simp [hdecode, Except.map]

theorem IsChecked.map {x : Fields ν α} (hx : x.IsChecked) (g : α → β) : (g <$> x).IsChecked := by
  intro values b hb
  obtain ⟨a, ha, _⟩ := build_map_eq_ok.1 hb
  exact hx values a ha

theorem IsChecked.seq {f : Fields ν (α → β)} {x : Fields ν α} (hf : f.IsChecked)
    (hx : x.IsChecked) : (f <*> x).IsChecked := by
  intro values b hb rule hrule
  obtain ⟨g, a, hg, ha, _⟩ := build_seq_eq_ok.1 hb
  rcases List.mem_append.1 hrule with hrule | hrule
  · exact hf values g hg rule hrule
  · exact hx values a ha rule hrule

end Fields

theorem lookup_of_nodup {entries : List (String × ν)} (h : (entries.map (·.1)).Nodup)
    {key : String} {value : ν} (he : (key, value) ∈ entries) : entries.lookup key = some value := by
  induction entries with
  | nil => cases he
  | cons e rest ih =>
    rw [List.map_cons, List.nodup_cons] at h
    rw [lookup_cons_eq_ite]
    rcases List.mem_cons.1 he with rfl | he
    · exact if_pos rfl
    · have hne : key ≠ e.1 := by
        rintro rfl
        exact h.1 (List.mem_map.2 ⟨(e.1, value), he, rfl⟩)
      rw [if_neg hne]
      exact ih h.2 he

/-- Where the keys are distinct and known, what is looked up is what stands there. -/
theorem forall_lookup_iff {entries : List (String × ν)} {names : List String} {P : ν → Prop}
    (h : (entries.map (·.1)).Nodup) (hknown : ∀ e ∈ entries, e.1 ∈ names) :
    (∀ name ∈ names, ∀ v, entries.lookup name = some v → P v) ↔ ∀ e ∈ entries, P e.2 := by
  constructor
  · intro hall e he
    exact hall e.1 (hknown e he) e.2 (lookup_of_nodup h he)
  · intro hall name _ v hv
    obtain ⟨before, after, rfl, _⟩ := List.lookup_eq_some_iff.1 hv
    exact hall (name, v) (by simp)

namespace Record

variable {κ : Type} {r : Record ν α} {reading : Reading κ ν}

/-! ### What is read was built -/

theorem build_of_ofEntries {entries : List (κ × ν)} {a : α}
    (h : r.ofEntries reading entries = .ok a) : ∃ values, r.fields.build values = .ok a := by
  rw [ofEntries, Result.bind_eq_ok_iff] at h
  obtain ⟨found, _, h⟩ := h
  exact ⟨_, h⟩

theorem build_of_ofItems {items : List ν} {a : α} (h : r.ofItems items = .ok a) :
    ∃ values, r.fields.build values = .ok a := by
  rw [ofItems, Result.bind_eq_ok_iff] at h
  obtain ⟨_, _, h⟩ := h
  split at h
  · cases h
  · split at h
    · cases h
    · exact ⟨_, h⟩

/-! ### What is written reads -/

/-- Entries that read as values, each under a name. -/
def Reads (reading : Reading κ ν) (entries : List (κ × ν)) (values : List (String × ν)) : Prop :=
  List.Forall₂ (fun e v => reading.name e.1 = .ok v.1 ∧ e.2 = v.2) entries values

/-- Where the keys are the names, entries read as they stand. -/
theorem reads_iff_eq {reading : Reading String ν} (hname : ∀ key, reading.name key = .ok key)
    {entries values : List (String × ν)} : Reads reading entries values ↔ entries = values := by
  have hsame : (fun e v : String × ν => reading.name e.1 = .ok v.1 ∧ e.2 = v.2) = Eq := by
    funext e v
    simp [hname, Prod.ext_iff]
  rw [Reads, hsame, List.forall₂_eq_eq_eq]

theorem lookup_eq_none_of_nodup {found rest : List (String × ν)} {v : String × ν}
    (h : ((found ++ v :: rest).map (·.1)).Nodup) : found.lookup v.1 = none := by
  rw [List.map_append, List.map_cons, List.nodup_append] at h
  rw [List.lookup_eq_none_iff]
  intro e he
  have hne : e.1 ≠ v.1 := h.2.2 _ (List.mem_map_of_mem he) _ List.mem_cons_self
  simpa using hne.symm

/-- Entries of which the fields have some values. A name that is no field may stand among them in an
open record, if its value can be passed over. -/
inductive Holds (r : Record ν α) (reading : Reading κ ν) :
    List (κ × ν) → List (String × ν) → Prop where
  | nil : Holds r reading [] []
  | field {key : κ} {name : String} {value : ν} {entries : List (κ × ν)}
      {values : List (String × ν)} (hname : reading.name key = .ok name) (hknown : name ∈ r.names)
      (h : Holds r reading entries values) :
      Holds r reading ((key, value) :: entries) ((name, value) :: values)
  | other {key : κ} {name : String} {value : ν} {entries : List (κ × ν)}
      {values : List (String × ν)} (hopen : r.strict = false)
      (hname : reading.name key = .ok name) (hunknown : name ∉ r.names)
      (hskip : reading.skip value = .ok ()) (h : Holds r reading entries values) :
      Holds r reading ((key, value) :: entries) values

theorem holds_of_reads {entries : List (κ × ν)} {values : List (String × ν)}
    (hreads : Reads reading entries values) (hknown : ∀ v ∈ values, v.1 ∈ r.names) :
    r.Holds reading entries values := by
  induction hreads with
  | nil => exact .nil
  | @cons e v entries values he _ ih =>
    obtain ⟨key, value⟩ := e
    obtain ⟨name, value'⟩ := v
    obtain ⟨hname, rfl⟩ := he
    exact .field hname (hknown _ List.mem_cons_self)
      (ih fun w hw => hknown w (List.mem_cons_of_mem _ hw))

theorem find?_eq_none_of_unknown {name : String} (h : name ∉ r.names) :
    r.fields.rules.find? (·.name == name) = none := by
  apply List.find?_eq_none.2
  intro rule hrule hname
  exact h (List.mem_map.2 ⟨rule, hrule, by simpa using hname⟩)

/-- Fields that pass their checks, no field twice, are collected as they stand. -/
theorem Holds.collect_eq_ok {entries : List (κ × ν)} {values found : List (String × ν)}
    (h : r.Holds reading entries values) (hdistinct : ((found ++ values).map (·.1)).Nodup)
    (hchecked : ∀ v ∈ values, ∀ rule ∈ r.fields.rules, rule.name = v.1 → rule.check v.2 = .ok ()) :
    r.collect reading entries found = .ok (found ++ values) := by
  induction h generalizing found with
  | nil => rw [collect, List.append_nil]
  | @field key name value entries values hname hknown _ ih =>
    have hfresh : found.lookup name = none := lookup_eq_none_of_nodup (v := (name, value)) hdistinct
    obtain ⟨rule, hrule, hrulename⟩ := List.mem_map.1 hknown
    cases hfind : r.fields.rules.find? (·.name == name) with
    | none => simpa [hrulename] using List.find?_eq_none.1 hfind rule hrule
    | some first =>
      have hcheck : first.check value = .ok () :=
        hchecked (name, value) List.mem_cons_self first (List.mem_of_find?_eq_some hfind)
          (by simpa using List.find?_some hfind)
      have hrest : r.collect reading entries (found ++ [(name, value)])
          = .ok (found ++ [(name, value)] ++ values) :=
        ih (by simpa using hdistinct) fun w hw => hchecked w (List.mem_cons_of_mem _ hw)
      simpa [collect, hname, hfind, hfresh, hcheck] using hrest
  | @other key name value entries values hopen hname hunknown hskip _ ih =>
    rw [collect, hname, Result.ok_bind, find?_eq_none_of_unknown hunknown]
    simpa [hopen, hskip] using ih hdistinct hchecked

/-- What a strict record collects are its fields, no field twice, and there are no others. -/
theorem reads_of_collect (hstrict : r.strict = true) {entries : List (κ × ν)}
    {found all : List (String × ν)} (hfound : (found.map (·.1)).Nodup)
    (h : r.collect reading entries found = .ok all) : ∃ values, Reads reading entries values
      ∧ all = found ++ values ∧ (all.map (·.1)).Nodup ∧ ∀ v ∈ values, v.1 ∈ r.names := by
  induction entries generalizing found with
  | nil =>
    obtain rfl : found = all := by simpa [collect] using h
    exact ⟨[], .nil, (List.append_nil found).symm, hfound, nofun⟩
  | cons e rest ih =>
    obtain ⟨key, value⟩ := e
    rw [collect] at h
    obtain ⟨name, hname, h⟩ := Result.bind_eq_ok_iff.1 h
    cases hfind : r.fields.rules.find? (·.name == name) with
    | none => simp [hfind, hstrict] at h
    | some rule =>
      simp only [hfind] at h
      cases hfresh : found.lookup name with
      | some old => simp [hfresh] at h
      | none =>
        simp only [hfresh, Option.isSome_none, Bool.false_eq_true, if_false] at h
        obtain ⟨_, _, h⟩ := Result.bind_eq_ok_iff.1 h
        have hnew : ((found ++ [(name, value)]).map (·.1)).Nodup := by
          rw [List.map_append, List.nodup_append]
          refine ⟨hfound, by simp, ?_⟩
          intro old hold new hmem heq
          obtain ⟨v, hv, rfl⟩ := List.mem_map.1 hold
          obtain rfl : new = name := by simpa using hmem
          simpa [heq] using List.lookup_eq_none_iff.1 hfresh v hv
        obtain ⟨values, hreads, hall, hdistinct, hknown⟩ := ih hnew h
        have hmem : name ∈ r.names := by
          refine List.mem_map.2 ⟨rule, List.mem_of_find?_eq_some hfind, ?_⟩
          simpa using List.find?_some hfind
        refine ⟨(name, value) :: values, .cons ⟨hname, rfl⟩ hreads, by simpa using hall, hdistinct,
          fun v hv => ?_⟩
        rcases List.mem_cons.1 hv with rfl | hv
        · exact hmem
        · exact hknown v hv

/-- What the fields among some entries build is read of the entries. -/
theorem Holds.ofEntries_eq_ok (hr : r.fields.IsChecked) {entries : List (κ × ν)}
    {values : List (String × ν)} (h : r.Holds reading entries values)
    (hdistinct : (values.map (·.1)).Nodup) {a : α}
    (ha : r.fields.build (fun name => values.lookup name) = .ok a) :
    r.ofEntries reading entries = .ok a := by
  have hcollect : r.collect reading entries [] = .ok values := by
    refine h.collect_eq_ok (by simpa using hdistinct) ?_
    rintro ⟨key, value⟩ hv rule hrule rfl
    exact hr _ a ha rule hrule value (lookup_of_nodup hdistinct hv)
  rw [ofEntries, hcollect]
  exact ha

/-- Fields that were written read as what their values build. -/
theorem ofEntries_eq_ok {reading : Reading String ν} (hname : ∀ key, reading.name key = .ok key)
    (hr : r.fields.IsChecked) {entries : List (String × ν)}
    (hdistinct : (entries.map (·.1)).Nodup) (hknown : ∀ e ∈ entries, e.1 ∈ r.names) {a : α}
    (ha : r.fields.build (fun name => entries.lookup name) = .ok a) :
    r.ofEntries reading entries = .ok a :=
  (holds_of_reads ((reads_iff_eq hname).2 rfl) hknown).ofEntries_eq_ok hr hdistinct ha

/-- **What a strict record reads.** Entries read just if each is a field, no field stands twice and
the values build. -/
theorem ofEntries_eq_ok_iff (hstrict : r.strict = true) (hr : r.fields.IsChecked)
    {entries : List (κ × ν)} {a : α} : r.ofEntries reading entries = .ok a ↔
      ∃ values, Reads reading entries values ∧ (values.map (·.1)).Nodup
        ∧ (∀ v ∈ values, v.1 ∈ r.names)
        ∧ r.fields.build (fun name => values.lookup name) = .ok a := by
  constructor
  · intro h
    rw [ofEntries] at h
    obtain ⟨all, hcollect, hbuild⟩ := Result.bind_eq_ok_iff.1 h
    have hnone : (([] : List (String × ν)).map (·.1)).Nodup := by simp
    obtain ⟨values, hreads, hall, hdistinct, hknown⟩ := reads_of_collect hstrict hnone hcollect
    rw [hall, List.nil_append] at hbuild hdistinct
    exact ⟨values, hreads, hdistinct, hknown, hbuild⟩
  · rintro ⟨values, hreads, hdistinct, hknown, hbuild⟩
    exact (holds_of_reads hreads hknown).ofEntries_eq_ok hr hdistinct hbuild

/-- Where names are distinct, the value in the position of a field is the one under its name. -/
theorem lookup_zip_of_mem (hnames : r.names.Nodup) {items : List ν} {rule : FieldRule ν} {item : ν}
    (h : (rule, item) ∈ r.fields.rules.zip items) :
    (r.names.zip items).lookup rule.name = some item := by
  refine lookup_of_nodup ?_ ?_
  · rw [List.zip_eq_zip_take_min, List.map_fst_zip (by simp)]
    exact hnames.sublist (List.take_sublist _ _)
  · rw [names, List.zip_map_left]
    exact List.mem_map.2 ⟨_, h, rfl⟩

/-- **What a record reads in order.** Values read as the fields in whose positions they are, if all
required fields are among the first. -/
theorem ofItems_eq_ok_iff (hnames : r.names.Nodup) (hr : r.fields.IsChecked) {items : List ν}
    {a : α} : r.ofItems items = .ok a ↔
      (∀ rule ∈ r.fields.rules.drop items.length, rule.isRequired = false)
      ∧ items.length ≤ r.fields.rules.length
      ∧ r.fields.build (fun name => (r.names.zip items).lookup name) = .ok a := by
  rw [ofItems]
  constructor
  · intro h
    obtain ⟨_, _, h⟩ := Result.bind_eq_ok_iff.1 h
    split at h
    · cases h
    next hnone =>
      rw [List.findIdx?_eq_none_iff] at hnone
      by_cases hmore : r.fields.rules.length < items.length
      · simp [hmore] at h
      · exact ⟨hnone, Nat.not_lt.1 hmore, by simpa [hmore] using h⟩
  · rintro ⟨hnone, hlength, hbuild⟩
    refine Result.bind_eq_ok_iff.2 ⟨(), Result.forM_eq_ok_iff.2 fun e he => ?_, ?_⟩
    · exact hr _ a hbuild e.1 (List.of_mem_zip he).1 e.2 (lookup_zip_of_mem hnames he)
    · rw [List.findIdx?_eq_none_iff.2 hnone]
      simpa [Nat.not_lt.2 hlength] using hbuild

end Record

theorem build_of_asRecord {r : Record Json α} {v : Json} {a : α} (h : v.asRecord r = .ok a) :
    ∃ values, r.fields.build values = .ok a := by
  cases v with
  | object fields => exact Record.build_of_ofEntries h
  | array items => exact Record.build_of_ofItems h
  | _ => cases h

end ActionRegistry.Decoding
