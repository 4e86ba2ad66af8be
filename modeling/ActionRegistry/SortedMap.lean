/-!
# Maps in key order

A map from texts is the list of its entries in strictly ascending order of the keys. The order on
texts is the order of code points, which is also the order of their UTF-8 bytes. A later entry for a
key takes the place of the earlier one, so a map never holds a key twice.
-/

namespace ActionRegistry

def Ascending {α : Type u} (entries : List (String × α)) : Prop :=
  entries.Pairwise fun a b => a.1 < b.1

/-- Entries in ascending order with the value of one key set. -/
def putEntry {α : Type u} (key : String) (value : α) : List (String × α) → List (String × α)
  | [] => [(key, value)]
  | (k, v) :: rest =>
    if key < k then (key, value) :: (k, v) :: rest
    else if key = k then (key, value) :: rest
    else (k, v) :: putEntry key value rest

theorem mem_putEntry {α : Type u} {key : String} {value : α} {entries : List (String × α)}
    {e : String × α} (h : e ∈ putEntry key value entries) : e = (key, value) ∨ e ∈ entries := by
  induction entries with
  | nil => simpa [putEntry] using h
  | cons head rest ih =>
    rw [putEntry] at h
    split at h
    · simpa using h
    · split at h
      · rcases List.mem_cons.1 h with h | h
        · exact Or.inl h
        · exact Or.inr (List.mem_cons_of_mem _ h)
      · rcases List.mem_cons.1 h with h | h
        · exact Or.inr (h ▸ List.mem_cons_self)
        · exact (ih h).imp id (List.mem_cons_of_mem _)

theorem Ascending.putEntry {α : Type u} {entries : List (String × α)} (key : String) (value : α)
    (h : Ascending entries) : Ascending (putEntry key value entries) := by
  induction entries with
  | nil => simp [ActionRegistry.putEntry, Ascending]
  | cons head rest ih =>
    obtain ⟨k, v⟩ := head
    obtain ⟨hhead, hrest⟩ := List.pairwise_cons.1 h
    rw [ActionRegistry.putEntry]
    split
    next hlt =>
      refine List.pairwise_cons.2 ⟨fun e he => ?_, h⟩
      rcases List.mem_cons.1 he with rfl | he
      · exact hlt
      · exact String.lt_trans hlt (hhead e he)
    next hlt =>
      split
      next heq => exact List.pairwise_cons.2 ⟨fun e he => heq ▸ hhead e he, hrest⟩
      next hne =>
        refine List.pairwise_cons.2 ⟨fun e he => ?_, ih hrest⟩
        rcases mem_putEntry he with rfl | he
        · exact Std.lt_of_le_of_ne (Std.not_lt.1 hlt) (Ne.symm hne)
        · exact hhead e he

theorem lookup_cons_eq_ite {α : Type u} (key k : String) (value : α) (rest : List (String × α)) :
    ((k, value) :: rest).lookup key = if key = k then some value else rest.lookup key := by
  rw [List.lookup_cons]
  by_cases h : key = k
  · simp [h]
  · simp [h, beq_false_of_ne h]

/-- A key has the value that was put last, and the other keys keep theirs. -/
theorem lookup_putEntry {α : Type u} (k key : String) (value : α) (entries : List (String × α)) :
    (putEntry key value entries).lookup k = if k = key then some value else entries.lookup k := by
  induction entries with
  | nil => rw [putEntry, lookup_cons_eq_ite]
  | cons head rest ih =>
    obtain ⟨k', v⟩ := head
    rw [putEntry]
    split
    next => rw [lookup_cons_eq_ite]
    next =>
      split
      next heq =>
        subst heq
        rw [lookup_cons_eq_ite, lookup_cons_eq_ite]
        by_cases hk : k = key <;> simp only [hk, if_true, if_false]
      next hne =>
        rw [lookup_cons_eq_ite, lookup_cons_eq_ite, ih]
        by_cases hk : k = k'
        · subst hk
          rw [if_pos rfl, if_neg (Ne.symm hne), if_pos rfl]
        · rw [if_neg hk, if_neg hk]

/-- In ascending entries the value of a key is the one that stands with it. -/
theorem Ascending.lookup_eq_some_iff {α : Type u} {entries : List (String × α)}
    (h : Ascending entries) {key : String} {value : α} :
    entries.lookup key = some value ↔ (key, value) ∈ entries := by
  induction entries with
  | nil => simp
  | cons head rest ih =>
    obtain ⟨k, v⟩ := head
    obtain ⟨hhead, hrest⟩ := List.pairwise_cons.1 h
    rw [lookup_cons_eq_ite]
    by_cases hk : key = k
    · subst hk
      have habsent : (key, value) ∉ rest := fun hmem => String.lt_irrefl key (hhead _ hmem)
      simp [habsent, eq_comm]
    · simp [hk, ih hrest]

theorem putEntry_perm {α : Type u} {key : String} {entries : List (String × α)}
    (h : entries.lookup key = none) (value : α) :
    (putEntry key value entries).Perm ((key, value) :: entries) := by
  induction entries with
  | nil => exact List.Perm.refl _
  | cons head rest ih =>
    obtain ⟨k, v⟩ := head
    rw [lookup_cons_eq_ite] at h
    rw [putEntry]
    split
    next => exact List.Perm.refl _
    next =>
      split
      next heq => simp [heq] at h
      next hne =>
        rw [if_neg hne] at h
        exact ((ih h).cons (k, v)).trans (List.Perm.swap (key, value) (k, v) rest)

/-- A map from texts, as its entries in ascending order of the keys. -/
structure SortedMap (α : Type u) where
  entries : List (String × α)
  ascending : Ascending entries

namespace SortedMap

variable {α : Type u}

def empty : SortedMap α := ⟨[], List.Pairwise.nil⟩

instance : Inhabited (SortedMap α) := ⟨empty⟩

instance [DecidableEq α] : DecidableEq (SortedMap α) := fun a b =>
  if h : a.entries = b.entries then
    .isTrue (by cases a; cases b; cases h; rfl)
  else
    .isFalse fun hab => h (hab ▸ rfl)

def insert (m : SortedMap α) (key : String) (value : α) : SortedMap α :=
  ⟨putEntry key value m.entries, m.ascending.putEntry key value⟩

/-- The map of a list of entries, of which the last for a key counts. -/
def ofList (entries : List (String × α)) : SortedMap α :=
  entries.foldl (fun m e => m.insert e.1 e.2) empty

def get? (m : SortedMap α) (key : String) : Option α :=
  m.entries.lookup key

def contains (m : SortedMap α) (key : String) : Bool :=
  (m.get? key).isSome

def keys (m : SortedMap α) : List String :=
  m.entries.map (·.1)

def size (m : SortedMap α) : Nat :=
  m.entries.length

theorem ext {m m' : SortedMap α} (h : m.entries = m'.entries) : m = m' := by
  cases m
  cases m'
  cases h
  rfl

@[simp] theorem entries_empty : (empty : SortedMap α).entries = [] := rfl

@[simp] theorem entries_insert (m : SortedMap α) (key : String) (value : α) :
    (m.insert key value).entries = putEntry key value m.entries := rfl

@[simp] theorem get?_empty (key : String) : (empty : SortedMap α).get? key = none := rfl

theorem get?_insert (m : SortedMap α) (k key : String) (value : α) :
    (m.insert key value).get? k = if k = key then some value else m.get? k :=
  lookup_putEntry k key value m.entries

theorem get?_eq_some_iff (m : SortedMap α) {key : String} {value : α} :
    m.get? key = some value ↔ (key, value) ∈ m.entries :=
  m.ascending.lookup_eq_some_iff

theorem entries_insert_perm {m : SortedMap α} {key : String} (h : m.get? key = none) (value : α) :
    (m.insert key value).entries.Perm ((key, value) :: m.entries) :=
  putEntry_perm h value

theorem contains_eq_false_iff (m : SortedMap α) {key : String} :
    m.contains key = false ↔ m.get? key = none := by
  simp [contains]

theorem mem_keys_iff (m : SortedMap α) {key : String} :
    key ∈ m.keys ↔ ∃ value, m.get? key = some value := by
  simp [keys, get?_eq_some_iff]

theorem keys_nodup (m : SortedMap α) : m.keys.Nodup := by
  refine List.pairwise_map.2 (m.ascending.imp fun {a b} hlt heq => ?_)
  exact String.lt_irrefl b.1 (heq ▸ hlt)

end SortedMap

end ActionRegistry
