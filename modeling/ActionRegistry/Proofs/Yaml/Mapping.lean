import Mathlib.Data.List.Perm.Basic
import ActionRegistry.Proofs.Decoding.Record
import ActionRegistry.Yaml.Decode
import ActionRegistry.Yaml.Writer

/-!
# Documents that are mappings

What a document holds is told by its nodes, whichever way they are written: the keys may be quoted
or aliases, and the entries are in any order. An open record reads such a document field by field;
what stands under other keys only has to be whole.
-/

namespace ActionRegistry.Yaml

open Decoding

variable {α : Type} {targets : Targets}

namespace Targets

/-- A node is a scalar with a text, or an alias of one. -/
def IsText (targets : Targets) (n : Node) (s : String) : Prop :=
  ∃ tag slot style, targets.follow n = .scalar tag slot s style

/-- A node is a natural number: a scalar that is not quoted and looks like one, without a sign that
would make it negative. -/
def IsNatural (targets : Targets) (n : Node) (k : Nat) : Prop :=
  ∃ tag slot s style, targets.follow n = .scalar tag slot s style
    ∧ (style = .plain ∨ (style = .literal ∧ tag = some (Scalar.standardTag "int")))
    ∧ Scalar.unsigned? s.toList = some k

/-- A node stands for the value of a field. -/
def Stands (targets : Targets) (n : Node) : Writer.Field → Prop
  | .text s => targets.IsText n s
  | .number k => targets.IsNatural n k

/-- Entries that hold some fields and nothing else under the names that are known. -/
inductive Lists (targets : Targets) (known : List String) :
    List (Node × Node) → List (String × Writer.Field) → Prop where
  | nil : Lists targets known [] []
  | field {key value : Node} {name : String} {f : Writer.Field} {entries : List (Node × Node)}
      {fields : List (String × Writer.Field)} (hkey : targets.IsText key name)
      (hknown : name ∈ known) (hvalue : targets.Stands value f)
      (h : Lists targets known entries fields) :
      Lists targets known ((key, value) :: entries) ((name, f) :: fields)
  | other {key value : Node} {name : String} {entries : List (Node × Node)}
      {fields : List (String × Writer.Field)} (hkey : targets.IsText key name)
      (hunknown : name ∉ known) (hvalue : value.isComplete = true)
      (h : Lists targets known entries fields) :
      Lists targets known ((key, value) :: entries) fields

end Targets

/-- A document is a mapping that holds some fields, in any order, and nothing else under the names
that are known. -/
def Document.IsMapping (d : Document) (known : List String)
    (fields : List (String × Writer.Field)) : Prop :=
  d.isIntact = true ∧ ∃ tag slot entries found, d.root = .mapping tag slot entries
    ∧ found.Perm fields ∧ (Targets.ofDocument d).Lists known entries found

/-! ### Reading -/

theorem Targets.IsText.text_eq_ok {n : Node} {s : String} (h : targets.IsText n s)
    (expected : String) : Document.text expected (targets.follow n) = .ok s := by
  obtain ⟨tag, slot, style, hn⟩ := h
  rw [hn, Document.text]

theorem Targets.IsNatural.uint32_eq_ok {n : Node} {k : UInt32} (h : targets.IsNatural n k.toNat) :
    Document.uint32 (targets.follow n) = .ok k := by
  obtain ⟨tag, slot, s, style, hn, hstyle, hs⟩ := h
  have hk : k.toNat < 4294967296 := k.toNat_lt
  have hword : fitsUnsigned 64 (k.toNat : Int) = true := by simp [fitsUnsigned]; omega
  have hfits : fitsUnsigned 32 (k.toNat : Int) = true := by simp [fitsUnsigned]; omega
  simp [hn, Document.uint32, hstyle, hs, Option.filter, hword, hfits]

/-- The fields that entries hold are what a record finds among them. -/
theorem Targets.Lists.holds {r : Record Node α} (hopen : r.strict = false)
    {entries : List (Node × Node)} {fields : List (String × Writer.Field)}
    (h : targets.Lists r.names entries fields) :
    ∃ values, r.Holds (Document.reading targets) entries values
      ∧ values.map (·.1) = fields.map (·.1)
      ∧ ∀ name f, (name, f) ∈ fields → ∃ n, (name, n) ∈ values ∧ targets.Stands n f := by
  induction h with
  | nil => exact ⟨[], .nil, rfl, nofun⟩
  | @field key value name f entries fields hkey hknown hvalue _ ih =>
    obtain ⟨values, hholds, hnames, hvalues⟩ := ih
    refine ⟨(name, value) :: values, .field (hkey.text_eq_ok _) hknown hholds, by simp [hnames], ?_⟩
    intro name' f' hmem
    rcases List.mem_cons.1 hmem with heq | hmem
    · cases heq
      exact ⟨value, List.mem_cons_self, hvalue⟩
    · obtain ⟨n, hn, hf⟩ := hvalues name' f' hmem
      exact ⟨n, List.mem_cons_of_mem _ hn, hf⟩
  | @other key value name entries fields hkey hunknown hvalue _ ih =>
    obtain ⟨values, hholds, hvalues⟩ := ih
    have hskip : (Document.reading targets).skip value = .ok () := if_pos hvalue
    exact ⟨values, .other hopen (hkey.text_eq_ok _) hunknown hskip hholds, hvalues⟩

/-- An open record reads what the fields of a mapping build, and finds nothing under the names of no
field. -/
theorem Document.IsMapping.record_eq_ok {d : Document} {r : Targets → Record Node α}
    {fields : List (String × Writer.Field)} {a : α} {known : List String}
    (h : d.IsMapping known fields) (hnames : (r (.ofDocument d)).names = known)
    (hopen : (r (.ofDocument d)).strict = false) (hchecked : (r (.ofDocument d)).fields.IsChecked)
    (hdistinct : (fields.map (·.1)).Nodup)
    (hbuild : ∀ values : String → Option Node,
      (∀ name f, (name, f) ∈ fields →
        ∃ n, values name = some n ∧ (Targets.ofDocument d).Stands n f) →
      (∀ name, name ∉ fields.map (·.1) → values name = none) →
      (r (.ofDocument d)).fields.build values = .ok a) :
    d.record r = .ok a := by
  obtain ⟨_, tag, slot, entries, found, hroot, hperm, hlists⟩ := h
  rw [← hnames] at hlists
  obtain ⟨values, hholds, hkeys, hstands⟩ := hlists.holds hopen
  have hdistinct : (values.map (·.1)).Nodup := by
    rw [hkeys]
    exact (hperm.map _).nodup_iff.2 hdistinct
  have hread : (r (.ofDocument d)).ofEntries (reading (.ofDocument d)) entries = .ok a := by
    refine hholds.ofEntries_eq_ok hchecked hdistinct (hbuild _ ?_ ?_)
    · intro name f hmem
      obtain ⟨n, hn, hf⟩ := hstands name f (hperm.mem_iff.2 hmem)
      exact ⟨n, lookup_of_nodup hdistinct hn, hf⟩
    · intro name hmem
      rw [List.lookup_eq_none_iff]
      intro v hv
      have hname : v.1 ∈ fields.map (·.1) := by
        rw [← (hperm.map _).mem_iff, ← hkeys]
        exact List.mem_map_of_mem hv
      have hne : name ≠ v.1 := by
        rintro rfl
        exact hmem hname
      simpa using hne
  rw [record, hroot]
  exact hread

end ActionRegistry.Yaml
