import ActionRegistry.Proofs.Json.Fields

/-!
# Templates of JSON values

A template is a value with holes. All values that fit one template have the same parts at the same
positions, except behind a field whose name the template leaves open, and a template without holes
is fit by one value. So what a program does with its texts cannot change the structure of its output
as long as the output fits a template, and the structure itself can be read off the template, which
has finitely many parts.
-/

namespace ActionRegistry.Json

/-! ### Positions -/

/-- What leads from a value to one of its parts. -/
inductive Key where
  | field (name : String)
  | item (index : Nat)
  deriving DecidableEq, Repr

def into? : Json → Key → Option Json
  | object fields, .field name => fields.lookup name
  | array items, .item index => items[index]?
  | _, _ => none

/-- The part of a value at a position, which is the list of the keys that lead to it. -/
def part? : Json → List Key → Option Json
  | v, [] => some v
  | v, key :: place => (v.into? key).bind (part? · place)

theorem part?_append (v : Json) (place place' : List Key) :
    v.part? (place ++ place') = (v.part? place).bind (part? · place') := by
  induction place generalizing v with
  | nil => rfl
  | cons key place ih =>
    rw [List.cons_append, part?, part?, Option.bind_assoc]
    simp only [ih]

/-- What is seen of a value without its leaves. -/
inductive Form where
  | null
  | bool
  | number
  | string
  | array (length : Nat)
  | object (names : List String)
  deriving DecidableEq, Repr

def form : Json → Form
  | null => .null
  | bool _ => .bool
  | number _ => .number
  | string _ => .string
  | array items => .array items.length
  | object fields => .object (fields.map (·.1))

/-- Putting values under the same name keeps the names the same. -/
theorem names_putEntry {entries entries' : List (String × Json)}
    (h : entries.map (·.1) = entries'.map (·.1)) (name : String) (v v' : Json) :
    (putEntry name v entries).map (·.1) = (putEntry name v' entries').map (·.1) := by
  induction entries generalizing entries' with
  | nil =>
    cases entries' with
    | nil => rfl
    | cons _ _ => cases h
  | cons entry rest ih =>
    cases entries' with
    | nil => cases h
    | cons entry' rest' =>
      rw [List.map_cons, List.map_cons, List.cons.injEq] at h
      obtain ⟨hname, hrest⟩ := h
      rw [putEntry, putEntry, hname]
      split
      · simp [hrest]
      · split
        · simp [hrest]
        · simp [ih hrest]

theorem names_foldl_putEntry {fields fields' entries entries' : List (String × Json)}
    (h : fields.map (·.1) = fields'.map (·.1)) (hentries : entries.map (·.1) = entries'.map (·.1)) :
    (fields.foldl (fun sorted e => putEntry e.1 e.2 sorted) entries).map (·.1)
      = (fields'.foldl (fun sorted e => putEntry e.1 e.2 sorted) entries').map (·.1) := by
  induction fields generalizing fields' entries entries' with
  | nil =>
    cases fields' with
    | nil => exact hentries
    | cons _ _ => cases h
  | cons field rest ih =>
    cases fields' with
    | nil => cases h
    | cons field' rest' =>
      rw [List.map_cons, List.map_cons, List.cons.injEq] at h
      rw [List.foldl_cons, List.foldl_cons, ← h.1]
      exact ih h.2 (names_putEntry hentries field.1 field.2 field'.2)

theorem form_ofFields {fields fields' : List (String × Json)}
    (h : fields.map (·.1) = fields'.map (·.1)) :
    (ofFields fields).form = (ofFields fields').form := by
  rw [ofFields, ofFields, form, form, names_foldl_putEntry h rfl]

/-! ### Templates -/

/-- A JSON value with holes. -/
inductive Template where
  | text
  /-- One text. -/
  | word (s : String)
  | number
  | bool (value : Bool)
  | array (items : List Template)
  /-- Fields in the order in which they are put together. -/
  | object (fields : List (String × Template))
  /-- One text under a name of which the start is known. -/
  | entry (start : String)

namespace Template

mutual

def Fits : Template → Json → Prop
  | text, v => ∃ s, v = .string s
  | word s, v => v = .string s
  | number, v => ∃ n, v = .number n
  | bool b, v => v = .bool b
  | array items, v => ∃ vs, v = .array vs ∧ FitsItems items vs
  | object fields, v => ∃ vs, v = .ofFields vs ∧ FitsFields fields vs
  | entry start, v =>
    ∃ name s, v = .object [(name, .string s)] ∧ start.toList <+: name.toList

def FitsItems : List Template → List Json → Prop
  | [], vs => vs = []
  | _ :: _, [] => False
  | t :: ts, v :: vs => t.Fits v ∧ FitsItems ts vs

def FitsFields : List (String × Template) → List (String × Json) → Prop
  | [], vs => vs = []
  | _ :: _, [] => False
  | (name, t) :: ts, (name', v) :: vs => name = name' ∧ t.Fits v ∧ FitsFields ts vs

end

def into? : Template → Key → Option Template
  | object fields, .field name => fields.reverse.lookup name
  | array items, .item index => items[index]?
  | _, _ => none

def part? : Template → List Key → Option Template
  | t, [] => some t
  | t, key :: place => (t.into? key).bind (part? · place)

theorem part?_append (t : Template) (place place' : List Key) :
    t.part? (place ++ place') = (t.part? place).bind (part? · place') := by
  induction place generalizing t with
  | nil => rfl
  | cons key place ih =>
    rw [List.cons_append, part?, part?, Option.bind_assoc]
    simp only [ih]

mutual

/-- The parts of a template with their positions. -/
def parts : Template → List (List Key × Template)
  | array items => ([], array items) :: partsOfItems 0 items
  | object fields => ([], object fields) :: partsOfFields fields
  | t => [([], t)]

/-- The parts of items that are numbered from an index on. -/
def partsOfItems (index : Nat) : List Template → List (List Key × Template)
  | [] => []
  | t :: ts => t.parts.map (fun p => (.item index :: p.1, p.2)) ++ partsOfItems (index + 1) ts

def partsOfFields : List (String × Template) → List (List Key × Template)
  | [] => []
  | (name, t) :: ts => t.parts.map (fun p => (.field name :: p.1, p.2)) ++ partsOfFields ts

end

mutual

/-- Whether a template has no holes. -/
def isFull : Template → Bool
  | text | number | entry _ => false
  | word _ | bool _ => true
  | array items => areFull items
  | object fields => haveFull fields

def areFull : List Template → Bool
  | [] => true
  | t :: ts => t.isFull && areFull ts

def haveFull : List (String × Template) → Bool
  | [] => true
  | (_, t) :: ts => t.isFull && haveFull ts

end

def isEntry : Template → Bool
  | entry _ => true
  | _ => false

/-! ### What fits a template -/

theorem rel_getElem? {ts : List Template} {vs : List Json} (h : FitsItems ts vs) (index : Nat) :
    Option.Rel Fits ts[index]? vs[index]? := by
  induction ts generalizing vs index with
  | nil =>
    cases h
    exact .none
  | cons t ts ih =>
    cases vs with
    | nil => cases h
    | cons v vs =>
      obtain ⟨hv, hvs⟩ := h
      cases index with
      | zero => exact .some hv
      | succ index => exact ih hvs index

theorem length_eq_of_fitsItems {ts : List Template} {vs : List Json} (h : FitsItems ts vs) :
    vs.length = ts.length := by
  induction ts generalizing vs with
  | nil =>
    cases h
    rfl
  | cons t ts ih =>
    cases vs with
    | nil => cases h
    | cons v vs => rw [List.length_cons, List.length_cons, ih h.2]

theorem rel_lookup {ts : List (String × Template)} {vs : List (String × Json)}
    (h : FitsFields ts vs) (name : String) :
    Option.Rel Fits (ts.reverse.lookup name) (vs.reverse.lookup name) := by
  induction ts generalizing vs with
  | nil =>
    cases h
    exact .none
  | cons field ts ih =>
    cases vs with
    | nil => cases h
    | cons field' vs =>
      obtain ⟨name', t⟩ := field
      obtain ⟨_, v⟩ := field'
      obtain ⟨rfl, hv, hvs⟩ := h
      have hrest := ih hvs
      rw [List.reverse_cons, List.reverse_cons, List.lookup_append, List.lookup_append,
        lookup_cons_eq_ite, lookup_cons_eq_ite]
      generalize ts.reverse.lookup name = x at hrest
      generalize vs.reverse.lookup name = y at hrest
      cases hrest with
      | some hlater => exact .some hlater
      | none =>
        by_cases hname : name = name'
        · rw [if_pos hname, if_pos hname]
          exact .some hv
        · rw [if_neg hname, if_neg hname]
          exact .none

theorem names_eq_of_fitsFields {ts : List (String × Template)} {vs : List (String × Json)}
    (h : FitsFields ts vs) : vs.map (·.1) = ts.map (·.1) := by
  induction ts generalizing vs with
  | nil =>
    cases h
    rfl
  | cons field ts ih =>
    cases vs with
    | nil => cases h
    | cons field' vs => rw [List.map_cons, List.map_cons, ih h.2.2, h.1]

section Fits

variable {t : Template} {v v' : Json}

theorem Fits.rel_into? (h : t.Fits v) (ht : t.isEntry = false) (key : Key) :
    Option.Rel Fits (t.into? key) (v.into? key) := by
  cases t with
  | text =>
    obtain ⟨s, rfl⟩ := h
    exact .none
  | word s =>
    cases h
    exact .none
  | number =>
    obtain ⟨n, rfl⟩ := h
    exact .none
  | bool b =>
    cases h
    exact .none
  | array ts =>
    obtain ⟨vs, rfl, hvs⟩ := h
    cases key with
    | field name => exact .none
    | item index => exact rel_getElem? hvs index
  | object ts =>
    obtain ⟨vs, rfl, hvs⟩ := h
    cases key with
    | field name =>
      change Option.Rel Fits (ts.reverse.lookup name) ((ofFields vs).field? name)
      rw [field?_ofFields]
      exact rel_lookup hvs name
    | item index => exact .none
  | entry start => cases ht

/-- A value that fits has a part where the template has one, and it fits; behind a name that is left
open nothing is known. -/
theorem Fits.rel_part? (h : t.Fits v) (place : List Key) :
    Option.Rel Fits (t.part? place) (v.part? place)
      ∨ ∃ before key after start, place = before ++ key :: after
        ∧ t.part? before = some (.entry start) := by
  induction place generalizing t v with
  | nil => exact .inl (.some h)
  | cons key place ih =>
    cases ht : t.isEntry with
    | true =>
      cases t with
      | entry start => exact .inr ⟨[], key, place, start, rfl, rfl⟩
      | _ => cases ht
    | false =>
      have hinto := h.rel_into? ht key
      rw [part?, Json.part?]
      generalize hx : t.into? key = x at hinto ⊢
      generalize v.into? key = y at hinto ⊢
      cases hinto with
      | none => exact .inl .none
      | some hpart =>
        rcases ih hpart with hrel | ⟨before, next, after, start, rfl, hentry⟩
        · exact .inl hrel
        · refine .inr ⟨key :: before, next, after, start, rfl, ?_⟩
          rw [part?, hx]
          exact hentry

theorem Fits.exists_part (h : t.Fits v) {place : List Key} {part : Template}
    (hpart : t.part? place = some part) : ∃ w, v.part? place = some w ∧ part.Fits w := by
  rcases h.rel_part? place with hrel | ⟨before, key, after, start, rfl, hentry⟩
  · rw [hpart] at hrel
    generalize v.part? place = y at hrel
    cases hrel with
    | some hfits => exact ⟨_, rfl, hfits⟩
  · rw [part?_append, hentry] at hpart
    cases hpart

theorem Fits.part?_eq_none (h : t.Fits v) {place : List Key} (hpart : t.part? place = none) :
    v.part? place = none ∨ ∃ before key after start, place = before ++ key :: after
      ∧ t.part? before = some (.entry start) := by
  refine (h.rel_part? place).imp_left fun hrel => ?_
  rw [hpart] at hrel
  generalize v.part? place = y at hrel
  cases hrel
  rfl

theorem Fits.form_eq (h : t.Fits v) (h' : t.Fits v') (ht : t.isEntry = false) :
    v.form = v'.form := by
  cases t with
  | text =>
    obtain ⟨s, rfl⟩ := h
    obtain ⟨s', rfl⟩ := h'
    rfl
  | word s =>
    cases h
    cases h'
    rfl
  | number =>
    obtain ⟨n, rfl⟩ := h
    obtain ⟨n', rfl⟩ := h'
    rfl
  | bool b =>
    cases h
    cases h'
    rfl
  | array ts =>
    obtain ⟨vs, rfl, hvs⟩ := h
    obtain ⟨vs', rfl, hvs'⟩ := h'
    rw [form, form, length_eq_of_fitsItems hvs, length_eq_of_fitsItems hvs']
  | object ts =>
    obtain ⟨vs, rfl, hvs⟩ := h
    obtain ⟨vs', rfl, hvs'⟩ := h'
    exact form_ofFields ((names_eq_of_fitsFields hvs).trans (names_eq_of_fitsFields hvs').symm)
  | entry start => cases ht

end Fits

mutual

theorem eq_of_isFull : (t : Template) → t.isFull = true → ∀ {v v' : Json}, t.Fits v → t.Fits v' →
    v = v'
  | word _, _, _, _, h, h' => h.trans h'.symm
  | .bool _, _, _, _, h, h' => h.trans h'.symm
  | .array ts, ht, _, _, ⟨_, h, hvs⟩, ⟨_, h', hvs'⟩ => by
    rw [h, h', items_eq_of_areFull ts ht hvs hvs']
  | .object ts, ht, _, _, ⟨_, h, hvs⟩, ⟨_, h', hvs'⟩ => by
    rw [h, h', fields_eq_of_haveFull ts ht hvs hvs']

theorem items_eq_of_areFull : (ts : List Template) → areFull ts = true → ∀ {vs vs' : List Json},
    FitsItems ts vs → FitsItems ts vs' → vs = vs'
  | [], _, _, _, h, h' => h.trans h'.symm
  | t :: ts, hts, v :: vs, v' :: vs', h, h' => by
    obtain ⟨ht, hts⟩ := Bool.and_eq_true_iff.1 hts
    rw [eq_of_isFull t ht h.1 h'.1, items_eq_of_areFull ts hts h.2 h'.2]

theorem fields_eq_of_haveFull : (ts : List (String × Template)) → haveFull ts = true →
    ∀ {vs vs' : List (String × Json)}, FitsFields ts vs → FitsFields ts vs' → vs = vs'
  | [], _, _, _, h, h' => h.trans h'.symm
  | (name, t) :: ts, hts, (_, v) :: vs, (_, v') :: vs', ⟨hname, hv, hvs⟩, ⟨hname', hv', hvs'⟩ => by
    obtain ⟨ht, hts⟩ := Bool.and_eq_true_iff.1 hts
    rw [← hname, ← hname', eq_of_isFull t ht hv hv', fields_eq_of_haveFull ts hts hvs hvs']

end

/-! ### The parts of a template -/

theorem mem_partsOfItems {ts : List Template} {t part : Template} {place : List Key} {i : Nat}
    (ht : ts[i]? = some t) (hpart : (place, part) ∈ t.parts) (index : Nat) :
    (.item (index + i) :: place, part) ∈ partsOfItems index ts := by
  induction ts generalizing i index with
  | nil => simp at ht
  | cons t' ts ih =>
    rw [partsOfItems, List.mem_append]
    cases i with
    | zero =>
      cases ht
      exact .inl (List.mem_map.2 ⟨_, hpart, rfl⟩)
    | succ i =>
      have hlater := ih (List.getElem?_cons_succ ▸ ht) (index + 1)
      rw [Nat.add_right_comm] at hlater
      exact .inr hlater

theorem mem_partsOfFields {ts : List (String × Template)} {name : String} {t part : Template}
    {place : List Key} (ht : (name, t) ∈ ts) (hpart : (place, part) ∈ t.parts) :
    (.field name :: place, part) ∈ partsOfFields ts := by
  induction ts with
  | nil => cases ht
  | cons field ts ih =>
    rw [partsOfFields, List.mem_append]
    rcases List.mem_cons.1 ht with rfl | ht
    · exact .inl (List.mem_map.2 ⟨_, hpart, rfl⟩)
    · exact .inr (ih ht)

theorem mem_parts_of_part? {t part : Template} {place : List Key}
    (h : t.part? place = some part) : (place, part) ∈ t.parts := by
  induction place generalizing t with
  | nil =>
    cases h
    cases part <;> exact List.mem_cons_self
  | cons key place ih =>
    rw [part?, Option.bind_eq_some_iff] at h
    obtain ⟨next, hinto, hpart⟩ := h
    cases t with
    | array ts =>
      cases key with
      | field name => cases hinto
      | item index =>
        have hmem := mem_partsOfItems hinto (ih hpart) 0
        rw [Nat.zero_add] at hmem
        exact List.mem_cons_of_mem _ hmem
    | object ts =>
      cases key with
      | field name =>
        obtain ⟨before, after, hsplit, _⟩ := List.lookup_eq_some_iff.1 hinto
        have hmem : (name, next) ∈ ts := by
          rw [← List.mem_reverse, hsplit]
          simp
        exact List.mem_cons_of_mem _ (mem_partsOfFields hmem (ih hpart))
      | item index => cases hinto
    | _ => cases hinto

end Template

end ActionRegistry.Json
