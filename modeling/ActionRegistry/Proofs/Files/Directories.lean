import ActionRegistry.Proofs.Files.Path
import ActionRegistry.Proofs.Files.Write

/-!
# Making the directories that lead to a path

A directory can be made in one that is reached, if no file has its place. What is made first is the
directory itself; only where a parent is missing is that made before, and so on upwards. So where
there is no file on the way the directories that lead to a path are made, and the walk to the path
succeeds thereafter.
-/

namespace ActionRegistry

namespace FileTree

variable {t : FileTree} {place q : Place} {names front : List String}

/-- Names that lead down from a place and along which there is no file. -/
structure IsOpen (t : FileTree) (place : Place) (names : List String) : Prop where
  fits : ∀ name ∈ names, name ≠ ".." ∧ name.utf8ByteSize ≤ longestName
  clear : ∀ front, front <+: names → ∀ content, t.get? (place ++ front) ≠ some (.file content)

theorem IsOpen.of_prefix (h : t.IsOpen place names) (hfront : front <+: names) :
    t.IsOpen place front where
  fits name hname := h.fits name (hfront.subset hname)
  clear first hfirst := h.clear first (hfirst.trans hfront)

def Reaches (t : FileTree) (place : Place) (names : List String) : Prop :=
  t.walk place names = .ok (place ++ names) ∧ t.get? (place ++ names) = some .directory

theorem Reaches.of_directories {t' : FileTree} (h : t.Reaches place names)
    (hkept : ∀ q, t.get? q = some .directory → t'.get? q = some .directory) :
    t'.Reaches place names :=
  ⟨walk_of_directories hkept h.1, hkept _ h.2⟩

theorem Reaches.concat {name : String} (h : t.Reaches place names) (hup : name ≠ "..")
    (hfits : name.utf8ByteSize ≤ longestName)
    (hdirectory : t.get? (place ++ (names ++ [name])) = some .directory) :
    t.Reaches place (names ++ [name]) := by
  refine ⟨?_, hdirectory⟩
  rw [walk_append, h.1, Result.ok_bind, FileTree.walk, h.2]
  simp [hup, Nat.not_lt.2 hfits, FileTree.walk]

/-- Where there is no file on the way, only a directory may be missing. -/
theorem IsOpen.walk (h : t.IsOpen place names) :
    t.walk place names = .ok (place ++ names) ∨ t.walk place names = .error .notFound := by
  induction names generalizing place with
  | nil => exact .inl (by rw [FileTree.walk, List.append_nil])
  | cons name rest ih =>
    obtain ⟨⟨hup, hlong⟩, hrest⟩ := List.forall_mem_cons.1 h.fits
    rw [FileTree.walk]
    cases hplace : t.get? place with
    | none => exact .inr rfl
    | some entry =>
      cases entry with
      | file content => exact absurd (by simpa using hplace) (h.clear [] (List.nil_prefix) content)
      | directory =>
        have hopen : t.IsOpen (place ++ [name]) rest := by
          refine ⟨hrest, fun front hfront content => ?_⟩
          rw [List.append_assoc, List.singleton_append]
          exact h.clear (name :: front) (List.cons_prefix_cons.2 ⟨rfl, hfront⟩) content
        simp only [if_neg hup, if_neg (Nat.not_lt.2 hlong)]
        rw [List.append_cons place name rest]
        exact ih hopen

/-- A walk down goes through directories. -/
theorem get?_of_walk (hdown : ".." ∉ names) (hwalk : t.walk place names = .ok q)
    (hfront : front <+: names) (hne : front ≠ names) :
    t.get? (place ++ front) = some .directory := by
  obtain ⟨rest, rfl⟩ := hfront
  obtain ⟨name, rest, rfl⟩ := List.exists_cons_of_ne_nil (l := rest) (by rintro rfl; simp at hne)
  rw [walk_append] at hwalk
  obtain ⟨mid, hmid, hrest⟩ := Result.bind_eq_ok_iff.1 hwalk
  have hdown : ".." ∉ front := fun hmem => hdown (List.mem_append_left _ hmem)
  obtain rfl := (eq_append_of_walk hdown hmid).1
  rw [walk] at hrest
  cases hplace : t.get? (place ++ front) with
  | none => simp [hplace] at hrest
  | some entry =>
    cases entry with
    | file content => simp [hplace] at hrest
    | directory => rfl

end FileTree

namespace Files

variable {fs : Files} {p q : Path} {place : Place} {name : String}

/-! ### New places -/

/-- A path with a last name that can be given to something new. -/
structure IsNamed (p : Path) (name : String) : Prop where
  usable : checkPath p = .ok ()
  last : p.lastName? = some name
  noDot : name ≠ "."
  fits : name ≠ ".." ∧ name.utf8ByteSize ≤ FileTree.longestName

theorem IsNamed.names_eq (h : IsNamed q name) : q.names = q.names.dropLast ++ [name] :=
  Path.names_of_lastName? h.last h.noDot

theorem newPlace_of_reaches (h : IsNamed q name)
    (hreaches : fs.tree.Reaches (fs.origin q) q.names.dropLast) :
    fs.newPlace q = .ok (some (fs.origin q ++ q.names)) := by
  obtain ⟨hwalk, hdirectory⟩ := hreaches
  rw [h.names_eq, ← List.append_assoc]
  simp [newPlace, h.usable, h.last, h.noDot, h.fits.1, hwalk, directory, hdirectory,
    Nat.not_lt.2 h.fits.2]

theorem reaches_or_notFound {t : FileTree} {names : List String} (h : t.IsOpen place names) :
    t.Reaches place names ∨ (t.walk place names >>= directory t) = .error .notFound := by
  rcases h.walk with hwalk | hwalk
  · cases hentry : t.get? (place ++ names) with
    | none => exact .inr (by simp [hwalk, directory, hentry])
    | some entry =>
      cases entry with
      | file content => exact absurd hentry (h.clear names (List.prefix_refl names) content)
      | directory => exact .inl ⟨hwalk, hentry⟩
  · exact .inr (by simp [hwalk])

theorem newPlace_of_missing (h : IsNamed q name)
    (hmissing : (fs.tree.walk (fs.origin q) q.names.dropLast >>= directory fs.tree)
      = .error .notFound) : fs.newPlace q = .error .notFound := by
  obtain ⟨hup, _⟩ := h.fits
  cases hwalk : fs.tree.walk (fs.origin q) q.names.dropLast with
  | error e =>
    obtain rfl : e = .notFound := by simpa [hwalk] using hmissing
    simp [newPlace, h.usable, h.last, h.noDot, hup, hwalk]
  | ok inside =>
    have hdirectory : directory fs.tree inside = .error .notFound := by simpa [hwalk] using hmissing
    simp [newPlace, h.usable, h.last, h.noDot, hup, hwalk, hdirectory]

theorem makeDirectory_of_present (h : fs.entry q = .ok .directory) :
    fs.makeDirectory q = .error .alreadyExists := by
  obtain ⟨_, hcheck, h⟩ := Result.bind_eq_ok_iff.1 h
  obtain ⟨place, hwalk, h⟩ := Result.bind_eq_ok_iff.1 h
  have hplace : fs.tree.get? place = some .directory := by
    split at h
    · cases h
    · split at h <;> cases h
    next hplace => exact hplace
  rw [makeDirectory]
  cases hlast : q.lastName? with
  | none => simp [newPlace, hcheck, hlast]
  | some name =>
    by_cases hdots : name = "." ∨ name = ".."
    · simp [newPlace, hcheck, hlast, hdots, hwalk, directory, hplace]
    · obtain ⟨hdot, hup⟩ := not_or.1 hdots
      rw [Path.names_of_lastName? hlast hdot, FileTree.walk_append] at hwalk
      obtain ⟨inside, hinside, hwalk⟩ := Result.bind_eq_ok_iff.1 hwalk
      have hdown : ".." ∉ [name] := by simpa using Ne.symm hup
      obtain ⟨rfl, hfits⟩ := FileTree.eq_append_of_walk hdown hwalk
      have hin : fs.tree.get? inside = some .directory := by
        simpa using FileTree.get?_of_walk hdown hwalk List.nil_prefix (by simp)
      have hfits : ¬FileTree.longestName < name.utf8ByteSize := by simpa using hfits
      simp [newPlace, hcheck, hlast, hdots, hinside, directory, hin, hfits, hplace]

theorem makeDirectories_of_present {parents : List Path} (h : fs.entry q = .ok .directory) :
    fs.makeDirectories (q :: parents) = (.ok (), fs) := by
  have hpresent : fs.hasDirectory q = true := by rw [hasDirectory, h]
  simp [makeDirectories, makeDirectory_of_present h, hpresent]

theorem entry_of_reaches (hcheck : checkPath q = .ok ())
    (h : fs.tree.Reaches (fs.origin q) q.names) : fs.entry q = .ok .directory := by
  simp [entry, hcheck, h.1, h.2]

/-! ### New directories -/

/-- In a directory that is reached, another one is made or is there. -/
theorem makeDirectory_of_reaches (h : IsNamed q name)
    (hreaches : fs.tree.Reaches (fs.origin q) q.names.dropLast)
    (hclear : ∀ content, fs.tree.get? (fs.origin q ++ q.names) ≠ some (.file content)) :
    (∃ made, fs.makeDirectory q = .ok made ∧ made.workingDirectory = fs.workingDirectory
      ∧ made.tree.Reaches (fs.origin q) q.names)
    ∨ (fs.entry q = .ok .directory ∧ fs.tree.Reaches (fs.origin q) q.names) := by
  have hgiven := newPlace_of_reaches h hreaches
  have hconcat : ∀ t : FileTree, t.Reaches (fs.origin q) q.names.dropLast →
      t.get? (fs.origin q ++ q.names) = some .directory → t.Reaches (fs.origin q) q.names := by
    intro t ht hentry
    rw [h.names_eq] at hentry ⊢
    exact ht.concat h.fits.1 h.fits.2 hentry
  cases hentry : fs.tree.get? (fs.origin q ++ q.names) with
  | none =>
    have hplace : fs.origin q ++ q.names ≠ [] := by
      rw [h.names_eq]
      simp
    refine .inl ⟨fs.withTree (fs.tree.put (fs.origin q ++ q.names) .directory), ?_, rfl, ?_⟩
    · simp [makeDirectory, hgiven, hentry]
    refine hconcat _ (hreaches.of_directories fun place hdirectory => ?_) ?_
    · have hne : place ≠ fs.origin q ++ q.names := by
        rintro rfl
        cases hentry.symm.trans hdirectory
      exact ((FileTree.get?_put fs.tree hplace _).trans (if_neg hne)).trans hdirectory
    · exact (FileTree.get?_put fs.tree hplace _).trans (if_pos rfl)
  | some entry =>
    cases entry with
    | file content => exact absurd hentry (hclear content)
    | directory =>
      have hthere := hconcat fs.tree hreaches hentry
      exact .inr ⟨entry_of_reaches h.usable hthere, hthere⟩

theorem makeDirectories_of_reaches {parents : List Path}
    (hcheck : q.text ≠ "" → checkPath q = .ok ())
    (h : fs.tree.Reaches (fs.origin q) q.names) :
    fs.makeDirectories (q :: parents) = (.ok (), fs) := by
  by_cases htext : q.text = ""
  · simp [makeDirectories, htext]
  · exact makeDirectories_of_present (entry_of_reaches (hcheck htext) h)

theorem IsNamed.text_ne (h : IsNamed q name) : q.text ≠ "" :=
  (Path.checkPath_eq_ok_iff.1 h.usable).2.1

theorem makeDirectories_cons {parents : List Path} (h : IsNamed q name)
    (hclear : ∀ content, fs.tree.get? (fs.origin q ++ q.names) ≠ some (.file content))
    (hparents : fs.tree.Reaches (fs.origin q) q.names.dropLast
      ∨ ((fs.tree.walk (fs.origin q) q.names.dropLast >>= directory fs.tree) = .error .notFound
        ∧ ∃ mid, fs.makeDirectories parents = (.ok (), mid)
          ∧ mid.workingDirectory = fs.workingDirectory
          ∧ mid.tree.Reaches (fs.origin q) q.names.dropLast)) :
    ∃ made, fs.makeDirectories (q :: parents) = (.ok (), made)
      ∧ made.workingDirectory = fs.workingDirectory
      ∧ made.tree.Reaches (fs.origin q) q.names := by
  rcases hparents with hreaches | ⟨hmissing, mid, hmid, hworking, hreaches⟩
  · rcases makeDirectory_of_reaches h hreaches hclear with ⟨made, hmade, hnew⟩ | ⟨hentry, hthere⟩
    · exact ⟨made, by simp [makeDirectories, h.text_ne, hmade], hnew⟩
    · exact ⟨fs, makeDirectories_of_present hentry, rfl, hthere⟩
  · have hfirst : fs.makeDirectory q = .error .notFound := by
      simp [makeDirectory, newPlace_of_missing h hmissing]
    have horigin : mid.origin q = fs.origin q := by rw [origin, origin, hworking]
    have hgains := gainsDirectories_makeDirectories fs parents
    rw [hmid] at hgains
    rw [← horigin] at hreaches hclear ⊢
    have hagain := makeDirectory_of_reaches h hreaches fun content hfile =>
      hclear content (hgains.file_iff.1 hfile)
    rcases hagain with ⟨made, hmade, hsame, hnew⟩ | ⟨hentry, hthere⟩
    · refine ⟨made, ?_, hsame.trans hworking, hnew⟩
      simp [makeDirectories, h.text_ne, hfirst, hmid, hmade]
    · have hpresent : mid.hasDirectory q = true := by rw [hasDirectory, hentry]
      refine ⟨mid, ?_, hworking, hthere⟩
      simp [makeDirectories, h.text_ne, hfirst, hmid, makeDirectory_of_present hentry, hpresent]

theorem origin_ofSteps {front : List String} (h : front <+: p.steps) :
    fs.origin (Path.ofSteps p.isAbsolute front) = fs.origin p := by
  rw [origin, Path.isAbsolute_ofSteps (p.isSteps_steps.of_prefix h).isName, origin]

theorem isNamed_ofSteps {front : List String} (h : front ++ [name] <+: p.steps)
    (hcheck : checkPath p = .ok ()) (hdot : name ≠ ".")
    (hfits : name ≠ ".." ∧ name.utf8ByteSize ≤ FileTree.longestName) :
    IsNamed (Path.ofSteps p.isAbsolute (front ++ [name])) name := by
  have hlast : (Path.ofSteps p.isAbsolute (front ++ [name])).lastName? = some name := by
    rw [Path.lastName?_ofSteps (p.isSteps_steps.of_prefix h).isName, List.getLast?_concat]
  refine ⟨Path.checkPath_ofSteps hcheck h fun htext => ?_, hlast, hdot, hfits⟩
  simp [Path.lastName?, Path.pieces, htext, Path.splitSlashes] at hlast

/-- The directories that lead to a path are made where they are missing, if there is no file on the
way. -/
theorem makeDirectories_ancestorsOf {reversed : List String} (hsteps : reversed.reverse <+: p.steps)
    (hcheck : checkPath p = .ok ()) (hstart : fs.tree.get? (fs.origin p) = some .directory)
    (hopen : fs.tree.IsOpen (fs.origin p) (reversed.reverse.filter (· != "."))) :
    ∃ made, fs.makeDirectories (Path.ancestorsOf p.isAbsolute reversed) = (.ok (), made)
      ∧ made.workingDirectory = fs.workingDirectory
      ∧ made.tree.Reaches (fs.origin p) (reversed.reverse.filter (· != ".")) := by
  have hthere : fs.tree.Reaches (fs.origin p) [] := ⟨by simp [FileTree.walk], by simpa using hstart⟩
  -- The last name comes off first: a directory is made after those that lead to it.
  induction reversed with
  | nil =>
    rw [List.reverse_nil] at hsteps
    have hnames : (Path.ofSteps p.isAbsolute []).names = [] := by simp [Path.names_ofSteps]
    refine ⟨fs, makeDirectories_of_reaches (Path.checkPath_ofSteps hcheck hsteps) ?_, rfl, hthere⟩
    rw [hnames, origin_ofSteps hsteps]
    exact hthere
  | cons name reversed ih =>
    rw [List.reverse_cons] at hsteps hopen
    rw [Path.ancestorsOf, List.reverse_cons]
    have horigin : ∀ fs : Files,
        fs.origin (Path.ofSteps p.isAbsolute (reversed.reverse ++ [name])) = fs.origin p :=
      fun _ => origin_ofSteps hsteps
    have hnames : (Path.ofSteps p.isAbsolute (reversed.reverse ++ [name])).names
        = (reversed.reverse ++ [name]).filter (· != ".") :=
      Path.names_ofSteps (p.isSteps_steps.of_prefix hsteps).isName
    generalize hq : Path.ofSteps p.isAbsolute (reversed.reverse ++ [name]) = q at horigin hnames ⊢
    by_cases hdot : name = "."
    · -- A dot comes first, and stands for the directory where the path starts.
      subst hdot
      obtain rfl : reversed = [] := by
        simpa using (p.isSteps_steps.of_prefix hsteps).eq_nil_of_dot
      refine ⟨fs, makeDirectories_of_reaches ?_ ?_, rfl, hthere⟩
      · exact hq ▸ Path.checkPath_ofSteps hcheck hsteps
      · rw [hnames, horigin]
        exact hthere
    · have hfilter : (reversed.reverse ++ [name]).filter (· != ".")
          = reversed.reverse.filter (· != ".") ++ [name] := by
        simp [hdot]
      rw [hfilter] at hopen hnames ⊢
      have hnamed : IsNamed q name :=
        hq ▸ isNamed_ofSteps hsteps hcheck hdot (hopen.fits name List.mem_concat_self)
      have hdropLast : q.names.dropLast = reversed.reverse.filter (· != ".") := by
        rw [hnames, List.dropLast_concat]
      have hclear := hopen.clear _ (List.prefix_refl _)
      have hbefore := hopen.of_prefix (List.prefix_append _ _)
      rw [← hnames, ← horigin fs] at hclear ⊢
      refine makeDirectories_cons hnamed hclear ?_
      rw [hdropLast, horigin]
      refine (reaches_or_notFound hbefore).imp_right fun hmissing => ⟨hmissing, ?_⟩
      exact ih ((List.prefix_append _ _).trans hsteps) hbefore

end Files

end ActionRegistry
