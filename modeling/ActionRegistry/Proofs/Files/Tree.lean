import ActionRegistry.Error
import ActionRegistry.Files.Write

/-!
# Places and paths

What is in the places of a tree after one of them was changed, and where paths lead. A path leads
through directories, so it leads to the same place in every tree that has these directories too.
-/

namespace ActionRegistry

namespace FileTree

variable {t t' : FileTree} {place q : Place} {names : List String}

/-! ### One change -/

theorem get?_of_ne_nil (t : FileTree) (h : q ≠ []) : t.get? q = t.entries.lookup q := by
  simp [get?, h]

theorem lookup_filter_ne (place q : Place) (entries : List (Place × Entry)) :
    (entries.filter fun e => e.1 != place).lookup q
      = if q = place then none else entries.lookup q := by
  induction entries with
  | nil => simp
  | cons e rest ih =>
    obtain ⟨k, v⟩ := e
    by_cases hk : k = place
    · subst hk
      rw [List.filter_cons_of_neg (by simp), ih, List.lookup_cons]
      by_cases hq : q = k
      · simp [hq]
      · simp [hq, beq_false_of_ne hq]
    · rw [List.filter_cons_of_pos (by simpa using hk), List.lookup_cons, List.lookup_cons, ih]
      by_cases hq : q = k
      · subst hq
        simp [hk]
      · simp [beq_false_of_ne hq]

/-- A place that is removed is empty, and the others are as they were. The top directory stays. -/
theorem get?_remove (t : FileTree) (h : place ≠ []) :
    (t.remove place).get? q = if q = place then none else t.get? q := by
  by_cases hq : q = []
  · subst hq
    rw [if_neg h.symm]
    rfl
  · rw [get?_of_ne_nil _ hq, get?_of_ne_nil _ hq]
    exact lookup_filter_ne place q t.entries

/-- A place holds what was put there, and the others are as they were. -/
theorem get?_put (t : FileTree) (h : place ≠ []) (entry : Entry) :
    (t.put place entry).get? q = if q = place then some entry else t.get? q := by
  by_cases hq : q = place
  · subst hq
    rw [if_pos rfl, get?_of_ne_nil _ h, put, List.lookup_cons_self]
  · rw [if_neg hq]
    by_cases hnil : q = []
    · subst hnil
      rfl
    · have hremoved := get?_remove (q := q) t h
      rw [if_neg hq, get?_of_ne_nil _ hnil] at hremoved
      rw [get?_of_ne_nil _ hnil, put, List.lookup_cons, beq_false_of_ne hq]
      exact hremoved

/-! ### Walking -/

theorem walk_append (t : FileTree) (place : Place) (names more : List String) :
    t.walk place (names ++ more) = t.walk place names >>= fun q => t.walk q more := by
  induction names generalizing place with
  | nil => rfl
  | cons name rest ih =>
    rw [List.cons_append, walk, walk]
    cases t.get? place with
    | none => rfl
    | some entry =>
      cases entry with
      | file content => rfl
      | directory =>
        simp only
        split
        · exact ih _
        · split
          · rfl
          · exact ih _

/-- A walk leads to the same place wherever there are the same directories and maybe more. -/
theorem walk_of_directories
    (h : ∀ q, t.get? q = some .directory → t'.get? q = some .directory)
    (hwalk : t.walk place names = .ok q) : t'.walk place names = .ok q := by
  induction names generalizing place with
  | nil => exact hwalk
  | cons name rest ih =>
    rw [walk] at hwalk
    cases hplace : t.get? place with
    | none => simp [hplace] at hwalk
    | some entry =>
      cases entry with
      | file content => simp [hplace] at hwalk
      | directory =>
        simp only [hplace] at hwalk
        rw [walk, h place hplace]
        simp only
        split
        next hup => exact ih (by simpa only [if_pos hup] using hwalk)
        next hdown =>
          rw [if_neg hdown] at hwalk
          split
          next hlong => simp [hlong] at hwalk
          next hfits => exact ih (by simpa only [if_neg hfits] using hwalk)

/-- A walk that never turns back ends where its names lead, and they are not too long. -/
theorem eq_append_of_walk (hdown : ".." ∉ names) (hwalk : t.walk place names = .ok q) :
    q = place ++ names ∧ ∀ name ∈ names, name.utf8ByteSize ≤ longestName := by
  induction names generalizing place with
  | nil =>
    obtain rfl : place = q := by simpa [walk] using hwalk
    exact ⟨(List.append_nil place).symm, nofun⟩
  | cons name rest ih =>
    obtain ⟨hname, hrest⟩ : ".." ≠ name ∧ ".." ∉ rest := by simpa using hdown
    rw [walk] at hwalk
    cases hplace : t.get? place with
    | none => simp [hplace] at hwalk
    | some entry =>
      cases entry with
      | file content => simp [hplace] at hwalk
      | directory =>
        simp only [hplace, if_neg hname.symm] at hwalk
        by_cases hlong : longestName < name.utf8ByteSize
        · simp [hlong] at hwalk
        · rw [if_neg hlong] at hwalk
          obtain ⟨rfl, hfit⟩ := ih hrest hwalk
          refine ⟨by simp, fun other hother => ?_⟩
          rcases List.mem_cons.1 hother with rfl | hother
          · exact Nat.not_lt.1 hlong
          · exact hfit other hother

/-- Every place that holds something is in directories all the way. -/
def IsRooted (t : FileTree) : Prop :=
  ∀ place entry, t.get? place = some entry →
    ∀ n, n < place.length → t.get? (place.take n) = some .directory

theorem isRooted_of_entries
    (h : ∀ e ∈ t.entries, ∀ n < e.1.length, t.get? (e.1.take n) = some .directory) :
    t.IsRooted := by
  intro place entry hentry n hn
  have hplace : place ≠ [] := by
    rintro rfl
    exact absurd hn (Nat.not_lt_zero n)
  rw [get?_of_ne_nil t hplace] at hentry
  obtain ⟨before, after, hsplit, _⟩ := List.lookup_eq_some_iff.1 hentry
  exact h (place, entry) (hsplit ▸ List.mem_append_right _ List.mem_cons_self) n hn

theorem walk_of_isRooted (h : t.IsRooted) {entry : Entry}
    (hentry : t.get? (place ++ names) = some entry)
    (hnames : ∀ name ∈ names, name ≠ ".." ∧ name.utf8ByteSize ≤ longestName) :
    t.walk place names = .ok (place ++ names) := by
  induction names generalizing place with
  | nil => rw [walk, List.append_nil]
  | cons name rest ih =>
    obtain ⟨⟨hname, hfits⟩, hrest⟩ := List.forall_mem_cons.1 hnames
    have hplace : t.get? place = some .directory := by
      have htake := h _ _ hentry place.length (by simp)
      rwa [List.take_left] at htake
    rw [walk, hplace]
    simp only [if_neg hname, if_neg (Nat.not_lt.2 hfits)]
    rw [List.append_cons] at hentry
    rw [ih hentry hrest, ← List.append_cons]

end FileTree

/-! ### Paths -/

/-- The names of a path end with its last name, unless that is a dot. -/
theorem Path.names_of_lastName? {p : Path} {last : String} (h : p.lastName? = some last)
    (hlast : last ≠ ".") : p.names = p.names.dropLast ++ [last] := by
  have hnames : p.names = (p.pieces.filter (· != "")).filter (· != ".") := by
    rw [names, List.filter_filter]
    exact List.filter_congr fun name _ => Bool.and_comm _ _
  obtain ⟨before, hbefore⟩ := List.getLast?_eq_some_iff.1 h
  have hend : p.names = before.filter (· != ".") ++ [last] := by
    rw [hnames, hbefore, List.filter_append]
    simp [hlast]
  rw [hend, List.dropLast_concat]

/-- The directories that are to be there before a file is at a path: its parent and all above. -/
def Path.leading (p : Path) : List Path := (p.parent?.map ancestors).getD []

namespace Files

variable {fs fs' : Files} {p : Path} {place : Place}

def LeadsTo (fs : Files) (p : Path) (place : Place) : Prop :=
  fs.tree.walk (fs.origin p) p.names = .ok place

theorem LeadsTo.of_directories (h : fs.LeadsTo p place)
    (hsame : fs'.workingDirectory = fs.workingDirectory)
    (hkept : ∀ q, fs.tree.get? q = some .directory → fs'.tree.get? q = some .directory) :
    fs'.LeadsTo p place := by
  have horigin : fs'.origin p = fs.origin p := by rw [origin, origin, hsame]
  rw [LeadsTo, horigin]
  exact FileTree.walk_of_directories hkept h

theorem directory_eq_ok {tree : FileTree} {q : Place} (h : directory tree q = .ok place) :
    q = place ∧ tree.get? place = some .directory := by
  unfold directory at h
  split at h
  · cases h
  · cases h
  next hplace =>
    cases h
    exact ⟨rfl, hplace⟩

/-- The place of what is new at a path: the path leads there, and it is in a directory. -/
theorem newPlace_eq_some (h : fs.newPlace p = .ok (some place)) :
    checkPath p = .ok () ∧ fs.LeadsTo p place ∧ place ≠ [] := by
  cases hcheck : checkPath p with
  | error e => simp [newPlace, hcheck] at h
  | ok u =>
    refine ⟨rfl, ?_⟩
    cases hlast : p.lastName? with
    | none => simp [newPlace, hcheck, hlast] at h
    | some last =>
      by_cases hdots : last = "." ∨ last = ".."
      · simp [newPlace, hcheck, hlast, hdots, Result.bind_eq_ok_iff] at h
      · simp only [newPlace, hcheck, hlast, hdots, Result.ok_bind, if_false,
          Result.bind_eq_ok_iff] at h
        obtain ⟨inside, hinside, inside', hdirectory, hplace⟩ := h
        obtain ⟨rfl, hin⟩ := directory_eq_ok hdirectory
        by_cases hlong : FileTree.longestName < last.utf8ByteSize
        · simp [hlong] at hplace
        · simp only [hlong, if_false, Except.ok.injEq, Option.some.injEq] at hplace
          subst hplace
          obtain ⟨hdot, hup⟩ := not_or.1 hdots
          refine ⟨?_, by simp⟩
          rw [LeadsTo, Path.names_of_lastName? hlast hdot, FileTree.walk_append, hinside,
            Result.ok_bind, FileTree.walk, hin]
          simp [hup, hlong, FileTree.walk]

theorem entry_eq_file_iff {content : ByteArray} :
    fs.entry p = .ok (.file content) ↔ checkPath p = .ok () ∧ p.demandsDirectory = false
      ∧ ∃ place, fs.LeadsTo p place ∧ fs.tree.get? place = some (.file content) := by
  rw [entry]
  cases checkPath p with
  | error e => simp
  | ok u =>
    simp only [Result.ok_bind, Result.bind_eq_ok_iff, true_and]
    constructor
    · rintro ⟨place, hleads, hentry⟩
      split at hentry
      · cases hentry
      next hplace =>
        split at hentry
        · cases hentry
        next hdemands =>
          cases hentry
          exact ⟨by simpa using hdemands, place, hleads, hplace⟩
      · cases hentry
    · rintro ⟨hdemands, place, hleads, hplace⟩
      refine ⟨place, hleads, ?_⟩
      simp [hplace, hdemands]

theorem has_of_readText {text : String} (h : fs.readText p = .ok text) : fs.has p = true := by
  obtain ⟨entry, hentry, _⟩ := Result.bind_eq_ok_iff.1 h
  rw [has, hentry]
  rfl

end Files

end ActionRegistry
