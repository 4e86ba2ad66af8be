import Mathlib.Data.List.Induction
import ActionRegistry.Error
import ActionRegistry.Json.Decode

/-!
# JSON values that were written

Lists, maps and numbers are read back from the values that they are written as. A null is read as
nothing, so what is read is never a null that is there.
-/

namespace ActionRegistry

/-! ### Maps from their entries -/

theorem putEntry_of_last {α : Type u} {key : String} {entries : List (String × α)}
    (h : ∀ e ∈ entries, e.1 < key) (value : α) :
    putEntry key value entries = entries ++ [(key, value)] := by
  induction entries with
  | nil => rfl
  | cons e rest ih =>
    have hlt : e.1 < key := h e List.mem_cons_self
    have hne : key ≠ e.1 := fun heq => String.lt_irrefl key (heq ▸ hlt)
    rw [putEntry, if_neg (String.lt_asymm hlt), if_neg hne,
      ih fun e he => h e (List.mem_cons_of_mem _ he), List.cons_append]

/-- Ascending entries are put in as they stand. -/
theorem foldl_putEntry_of_ascending {α : Type u} {entries : List (String × α)}
    (h : Ascending entries) :
    entries.foldl (fun sorted e => putEntry e.1 e.2 sorted) [] = entries := by
  induction entries using List.reverseRecOn with
  | nil => rfl
  | append_singleton rest e ih =>
    obtain ⟨hrest, _, hlast⟩ := List.pairwise_append.1 h
    rw [List.foldl_append, ih hrest]
    exact putEntry_of_last (fun a ha => hlast a ha e (List.mem_singleton_self e)) e.2

namespace SortedMap

theorem entries_ofList {α : Type} (entries : List (String × α)) :
    (ofList entries).entries = entries.foldl (fun sorted e => putEntry e.1 e.2 sorted) [] := by
  have hfold : ∀ m : SortedMap α, (entries.foldl (fun m e => m.insert e.1 e.2) m).entries
      = entries.foldl (fun sorted e => putEntry e.1 e.2 sorted) m.entries := by
    induction entries with
    | nil => exact fun _ => rfl
    | cons e rest ih => exact fun m => ih (m.insert e.1 e.2)
  exact hfold empty

theorem ofList_entries {α : Type} (m : SortedMap α) : ofList m.entries = m :=
  ext ((entries_ofList m.entries).trans (foldl_putEntry_of_ascending m.ascending))

end SortedMap

namespace Json

open Decoding

variable {α : Type}

/-! ### Reading what was written -/

theorem mapM_map_eq_ok {β γ : Type} {f : β → Decoded γ} {g : γ → β} {items : List γ}
    (h : ∀ a ∈ items, f (g a) = .ok a) : (items.map g).mapM f = .ok items := by
  induction items with
  | nil => rfl
  | cons a rest ih =>
    have hrest := ih fun b hb => h b (List.mem_cons_of_mem a hb)
    rw [List.map_cons, List.mapM_cons, h a List.mem_cons_self, hrest]
    rfl

theorem asList_array {decode : Json → Decoded α} {encode : α → Json} {items : List α}
    (h : ∀ a ∈ items, decode (encode a) = .ok a) :
    asList decode (.array (items.map encode)) = .ok items :=
  mapM_map_eq_ok h

theorem asMap_object {decode : Json → Decoded α} {encode : α → Json}
    (h : ∀ a, decode (encode a) = .ok a) (m : SortedMap α) :
    asMap decode (.object (m.entries.map fun e => (e.1, encode e.2))) = .ok m := by
  have hentries : (m.entries.map fun e => (e.1, encode e.2)).mapM
      (fun field => do pure (field.1, ← decode field.2)) = .ok m.entries := by
    refine mapM_map_eq_ok fun e _ => ?_
    simp [h, pure, Except.pure]
  rw [asMap, hentries, Result.ok_bind, SortedMap.ofList_entries]
  rfl

/-- Fields that are kept as they are make a map. -/
theorem asMap_fields (fields : List (String × Json)) :
    asMap .ok (.object fields) = .ok (.ofList fields) := by
  have hfields : fields.mapM (fun field => do pure (field.1, ← Except.ok field.2))
      = (.ok fields : Decoded _) := by
    have hself := mapM_map_eq_ok (f := fun field : String × Json => .ok field) (g := id)
      fun field (_ : field ∈ fields) => rfl
    rwa [List.map_id] at hself
  rw [asMap, hfields]
  rfl

theorem asMap_ofMap (m : SortedMap Json) : asMap .ok (.ofMap m) = .ok m := by
  rw [ofMap, asMap_fields, SortedMap.ofList_entries]

theorem asUInt32_ofInt (n : UInt32) : asUInt32 (.ofInt n.toNat) = .ok n := by
  have hfits : fitsUnsigned 32 n.toNat = true := by
    have hlt := n.toNat_lt
    simp only [fitsUnsigned, Bool.and_eq_true, decide_eq_true_eq]
    omega
  rw [ofInt, asUInt32, if_pos hfits, Int.toNat_natCast, UInt32.ofNat_toNat]

/-! ### What is read -/

theorem exists_of_mapM_eq_ok {β γ : Type} {f : β → Decoded γ} {items : List β} {found : List γ}
    (h : items.mapM f = .ok found) {a : γ} (ha : a ∈ found) : ∃ item ∈ items, f item = .ok a := by
  induction items generalizing found with
  | nil =>
    cases h
    cases ha
  | cons item rest ih =>
    rw [List.mapM_cons, Result.bind_eq_ok_iff] at h
    obtain ⟨b, hitem, h⟩ := h
    rw [Result.bind_eq_ok_iff] at h
    obtain ⟨others, hrest, h⟩ := h
    cases h
    rcases List.mem_cons.1 ha with rfl | ha
    · exact ⟨item, List.mem_cons_self, hitem⟩
    · obtain ⟨other, hother, hread⟩ := ih hrest ha
      exact ⟨other, List.mem_cons_of_mem _ hother, hread⟩

theorem exists_of_asList {decode : Json → Decoded α} {v : Json} {found : List α}
    (h : asList decode v = .ok found) {a : α} (ha : a ∈ found) : ∃ item, decode item = .ok a := by
  cases v with
  | array items =>
    obtain ⟨item, _, hitem⟩ := exists_of_mapM_eq_ok h ha
    exact ⟨item, hitem⟩
  | _ => cases h

theorem asOption_of_ne_null {decode : Json → Decoded α} {v : Json} (h : v ≠ .null) :
    asOption decode v = some <$> decode v := by
  cases v with
  | null => exact absurd rfl h
  | _ => rfl

theorem asOption_getD {v : Option Json} (h : v ≠ some .null) :
    asOption .ok (v.getD .null) = .ok v := by
  cases v with
  | none => rfl
  | some v => exact asOption_of_ne_null fun hv => h (congrArg some hv)

/-- A null that is there is read as nothing. -/
theorem asOption_ok_ne_null {v : Json} {found : Option Json} (h : asOption .ok v = .ok found) :
    found ≠ some .null := by
  rintro rfl
  cases v <;> cases h

end Json

end ActionRegistry
