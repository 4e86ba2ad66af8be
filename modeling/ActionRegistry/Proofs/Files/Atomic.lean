import Mathlib.Data.List.Infix
import ActionRegistry.Proofs.Files.Directories

/-!
# Writing is all or nothing

A write leaves every other file alone and takes no file away, whether it succeeds or not. It makes
directories only where the first names of the path lead. And it does not fail without a reason: a
path whose names all lead down can be written unless a file is in the way, a directory has its
place, or the path itself cannot be used.
-/

namespace ActionRegistry.Files

variable {fs mid fs' : Files} {p : Path} {place : Place} {content : ByteArray} {front : List String}
  {name : String}

/-! ### Writing where there is room -/

/-- A path can be written: it can be used, nothing is in its way, and there is room for a temporary
file beside it. -/
structure IsFree (fs : Files) (p : Path) : Prop where
  usable : checkPath p = .ok ()
  roomy : (fs.temporaryPath (p.parent?.getD ⟨"."⟩)).text.utf8ByteSize ≤ FileTree.longestPath
  plain : p.demandsDirectory = false
  fits : ∀ name ∈ p.names, name.utf8ByteSize ≤ FileTree.longestName
  clear : ∀ front, front <+: p.names.dropLast → ∀ content,
    fs.tree.get? (fs.origin p ++ front) ≠ some (.file content)
  free : fs.tree.get? (fs.origin p ++ p.names) ≠ some .directory

theorem ne_file_iff {entry : Option Entry} :
    (∀ content, entry ≠ some (.file content)) ↔ entry = none ∨ entry = some .directory := by
  rcases entry with _ | _ | old
  · simp
  · simp
  · simp

theorem isFree_iff : fs.IsFree p ↔
    ('\x00' ∉ p.text.toList ∧ p.text ≠ "" ∧ p.text.utf8ByteSize ≤ FileTree.longestPath)
    ∧ (fs.temporaryPath (p.parent?.getD ⟨"."⟩)).text.utf8ByteSize ≤ FileTree.longestPath
    ∧ p.demandsDirectory = false
    ∧ (∀ name ∈ p.names, name.utf8ByteSize ≤ FileTree.longestName)
    ∧ (∀ front ∈ p.names.dropLast.inits, fs.tree.get? (fs.origin p ++ front) = none
      ∨ fs.tree.get? (fs.origin p ++ front) = some .directory)
    ∧ fs.tree.get? (fs.origin p ++ p.names) ≠ some .directory := by
  simp only [← Path.checkPath_eq_ok_iff, ← ne_file_iff, List.mem_inits]
  exact ⟨fun h => ⟨h.usable, h.roomy, h.plain, h.fits, h.clear, h.free⟩,
    fun ⟨husable, hroomy, hplain, hfits, hclear, hfree⟩ =>
      ⟨husable, hroomy, hplain, hfits, hclear, hfree⟩⟩

instance (fs : Files) (p : Path) : Decidable (fs.IsFree p) := decidable_of_iff _ isFree_iff.symm

theorem ne_of_prefix_dropLast {names : List String} (hnames : names ≠ [])
    (h : front <+: names.dropLast) : front ≠ names := by
  rintro rfl
  have hlength := h.length_le
  have hpositive := List.length_pos_iff.2 hnames
  rw [List.length_dropLast] at hlength
  omega

namespace IsFree

theorem exists_isNamed (h : fs.IsFree p) (hdown : ".." ∉ p.names) : ∃ name, IsNamed p name := by
  obtain ⟨name, hlast, hdot, hmem⟩ := Path.exists_lastName? h.plain
  have hup : name ≠ ".." := by
    rintro rfl
    exact hdown hmem
  exact ⟨name, h.usable, hlast, hdot, hup, h.fits name hmem⟩

theorem makeLeading (h : fs.IsFree p) (hdown : ".." ∉ p.names) (hsteps : p.steps ≠ [])
    (hstart : fs.tree.get? (fs.origin p) = some .directory) :
    ∃ mid, fs.makeLeading p = (.ok (), mid) ∧ mid.workingDirectory = fs.workingDirectory
      ∧ mid.tree.Reaches (fs.origin p) p.names.dropLast := by
  have hopen : fs.tree.IsOpen (fs.origin p) p.names.dropLast := by
    refine ⟨fun name hname => ⟨?_, h.fits name (List.dropLast_subset _ hname)⟩, h.clear⟩
    rintro rfl
    exact hdown (List.dropLast_subset _ hname)
  have hfront : p.steps.dropLast.reverse.reverse <+: p.steps := by
    rw [List.reverse_reverse]
    exact List.dropLast_prefix _
  have hfilter : p.steps.dropLast.reverse.reverse.filter (· != ".") = p.names.dropLast := by
    rw [List.reverse_reverse, Path.filter_dropLast_steps]
  have hleading : fs.makeLeading p = fs.makeDirectories p.leading := by
    rw [Files.makeLeading, Path.leading, Path.parent?_eq hsteps]
    rfl
  rw [hleading, Path.leading_eq hsteps, ← hfilter]
  exact makeDirectories_ancestorsOf hfront h.usable hstart (by rwa [hfilter])

theorem moveFile {added : Files} {temporary : Place} {entry : Entry} (h : IsNamed p name)
    (hplain : p.demandsDirectory = false)
    (hreaches : added.tree.Reaches (added.origin p) p.names.dropLast)
    (hfree : added.tree.get? (added.origin p ++ p.names) ≠ some .directory)
    (hentry : added.tree.get? temporary = some entry) :
    ∃ moved, added.moveFile temporary p = .ok moved := by
  rw [Files.moveFile, newPlace_of_reaches h hreaches, Result.ok_bind]
  simp only [hplain, Bool.false_eq_true, if_false, hentry]
  exact ⟨_, rfl⟩

/-- The directories that lead to a path do not take its place. -/
theorem of_gainsDirectories (h : fs.IsFree p) (hdown : ".." ∉ p.names) (hnames : p.names ≠ [])
    (hgains : fs.GainsDirectories mid p.leading) :
    mid.tree.get? (fs.origin p ++ p.names) ≠ some .directory := by
  intro hdirectory
  rcases hgains.only _ _ hdirectory with hold | ⟨_, parent, hparent, hleads⟩
  · exact h.free hold
  · obtain ⟨habsolute, hfront⟩ := Path.names_of_mem_leading hparent
    have horigin : mid.origin parent = fs.origin p := by
      rw [origin, origin, habsolute, hgains.workingDirectory]
    rw [LeadsTo, horigin] at hleads
    have hdown : ".." ∉ parent.names := fun hmem =>
      hdown (List.dropLast_subset _ (hfront.subset hmem))
    have hsame : p.names = parent.names :=
      List.append_cancel_left (FileTree.eq_append_of_walk hdown hleads).1
    exact ne_of_prefix_dropLast hnames hfront hsame.symm

theorem writeWhole (h : fs.IsFree p) (hdown : ".." ∉ p.names)
    (hstart : fs.tree.get? (fs.origin p) = some .directory) :
    (fs.writeWhole p content).1 = .ok () := by
  obtain ⟨name, hnamed⟩ := h.exists_isNamed hdown
  have hnames : p.names ≠ [] := by
    rw [hnamed.names_eq]
    simp
  have hsteps := Path.steps_ne_nil hnames
  obtain ⟨mid, hmid, hworking, hreaches⟩ := h.makeLeading hdown hsteps hstart
  have hgains := gainsDirectories_makeLeading fs p
  rw [hmid] at hgains
  let parent := Path.ofSteps p.isAbsolute p.steps.dropLast
  have hparent : parent.names = p.names.dropLast := by
    rw [Path.names_ofSteps p.isSteps_dropLast.isName, Path.filter_dropLast_steps]
  have horigin : ∀ q, mid.origin q = fs.origin q := fun q => by rw [origin, origin, hworking]
  -- The temporary file goes into the directory that was just made, and its name fits there.
  have hadd : ∃ temporary added, mid.addTemporary parent content = .ok (temporary, added) := by
    have hstart : mid.origin parent = fs.origin p :=
      (horigin parent).trans (origin_ofSteps (List.dropLast_prefix _))
    have hroomy := h.roomy
    have htemporary : mid.temporaryPath parent = fs.temporaryPath parent := by
      rw [temporaryPath, temporaryPath, hworking]
    rw [Path.parent?_eq hsteps, Option.getD_some, ← htemporary] at hroomy
    simp [addTemporary, hstart, hparent, hreaches.1, directory, hreaches.2, Nat.not_lt.2 hroomy]
  obtain ⟨temporary, added, hadd⟩ := hadd
  obtain ⟨htemporary, hunused, hadded⟩ := addTemporary_eq_ok hadd
  have hget : ∀ q, added.tree.get? q
      = if q = temporary then some (.file content) else mid.tree.get? q := by
    rw [hadded]
    exact fun q => FileTree.get?_put mid.tree htemporary _
  have hkept : ∀ q, mid.tree.get? q = some .directory → added.tree.get? q = some .directory := by
    intro q hq
    have hne : q ≠ temporary := by
      rintro rfl
      cases hunused.symm.trans hq
    rw [hget, if_neg hne, hq]
  have horigin : added.origin p = fs.origin p := by
    rw [hadded]
    exact horigin p
  -- Neither it nor a directory that was made stands where the path leads, so it can be moved there.
  obtain ⟨moved, hmoved⟩ : ∃ moved, added.moveFile temporary p = .ok moved := by
    refine moveFile hnamed h.plain (by rw [horigin]; exact hreaches.of_directories hkept) ?_
      ((hget temporary).trans (if_pos rfl))
    rw [horigin, hget]
    split
    · simp
    · exact h.of_gainsDirectories hdown hnames hgains
  rw [writeWhole_eq, hmid, Path.parent?_eq hsteps, Option.getD_some]
  simp [parent, hadd, hmoved]

end IsFree

theorem roomy_of_addTemporary {inside : Path} {given : Place × Files}
    (h : fs.addTemporary inside content = .ok given) :
    (fs.temporaryPath inside).text.utf8ByteSize ≤ FileTree.longestPath := by
  rw [addTemporary] at h
  obtain ⟨place, _, h⟩ := Result.bind_eq_ok_iff.1 h
  obtain ⟨place', _, h⟩ := Result.bind_eq_ok_iff.1 h
  split at h
  · cases h
  next hroomy => exact Nat.not_lt.1 hroomy

/-- A write that succeeds found room for its temporary file. -/
theorem roomy_of_writeWhole (h : (fs.writeWhole p content).1 = .ok ()) :
    (fs.temporaryPath (p.parent?.getD ⟨"."⟩)).text.utf8ByteSize ≤ FileTree.longestPath := by
  have hgains := gainsDirectories_makeLeading fs p
  rw [writeWhole_eq] at h
  rcases hmade : fs.makeLeading p with ⟨e | _, mid⟩
  · simp [hmade] at h
  · rw [hmade] at hgains h
    have htemporary : ∀ inside, fs.temporaryPath inside = mid.temporaryPath inside := by
      intro inside
      rw [temporaryPath, temporaryPath, hgains.workingDirectory]
    rw [htemporary]
    cases hadd : mid.addTemporary (p.parent?.getD ⟨"."⟩) content with
    | error e => simp [hadd] at h
    | ok given => exact roomy_of_addTemporary hadd

theorem IsWritten.isFree (h : fs.IsWritten fs' p content place) (hdown : ".." ∉ p.names)
    (hroomy : (fs.temporaryPath (p.parent?.getD ⟨"."⟩)).text.utf8ByteSize
      ≤ FileTree.longestPath) : fs.IsFree p := by
  obtain ⟨hcheck, hplain, _⟩ := entry_eq_file_iff.1 h.entry
  have horigin : fs'.origin p = fs.origin p := by rw [origin, origin, h.workingDirectory]
  have hwalk := h.leads
  rw [LeadsTo, horigin] at hwalk
  obtain ⟨rfl, hfits⟩ := FileTree.eq_append_of_walk hdown hwalk
  refine ⟨hcheck, hroomy, hplain, hfits, fun front hfront content hfile => ?_, h.noDirectory⟩
  obtain ⟨name, _, _, hname⟩ := Path.exists_lastName? hplain
  have hne : front ≠ p.names := ne_of_prefix_dropLast (List.ne_nil_of_mem hname) hfront
  have hdirectory := FileTree.get?_of_walk hdown hwalk (hfront.trans (List.dropLast_prefix _)) hne
  have hkept := h.kept _ _ (by simpa using hne) hfile
  cases hkept.symm.trans hdirectory

/-! ### All or nothing -/

/-- No directory is lost, and there are no new ones but where nothing was and the first names of a
path lead. -/
structure AddsParents (before after : Files) (p : Path) : Prop where
  workingDirectory : after.workingDirectory = before.workingDirectory
  kept : ∀ q, before.tree.get? q = some .directory → after.tree.get? q = some .directory
  only : ∀ q, after.tree.get? q = some .directory → before.tree.get? q = some .directory
    ∨ (before.tree.get? q = none
      ∧ ∃ front, front <+: p.names.dropLast ∧ after.tree.walk (before.origin p) front = .ok q)

/-- What leads to a path is where its first names lead. -/
theorem exists_front_of_leading {parent : Path} (hsame : fs'.workingDirectory = fs.workingDirectory)
    (hparent : parent ∈ p.leading) (hleads : fs'.LeadsTo parent place) :
    ∃ front, front <+: p.names.dropLast ∧ fs'.tree.walk (fs.origin p) front = .ok place := by
  obtain ⟨habsolute, hfront⟩ := Path.names_of_mem_leading hparent
  have horigin : fs'.origin parent = fs.origin p := by rw [origin, origin, habsolute, hsame]
  rw [LeadsTo, horigin] at hleads
  exact ⟨parent.names, hfront, hleads⟩

theorem addsParents_of_leading (hsame : fs'.workingDirectory = fs.workingDirectory)
    (hkept : ∀ q entry, fs.tree.get? q = some entry →
      entry = .directory ∨ fs'.tree.get? q = some .directory → fs'.tree.get? q = some entry)
    (honly : ∀ q, fs'.tree.get? q = some .directory → fs.tree.get? q = some .directory
      ∨ ∃ parent ∈ p.leading, fs'.LeadsTo parent q) : fs.AddsParents fs' p where
  workingDirectory := hsame
  kept q hq := hkept q .directory hq (.inl rfl)
  only q hq := by
    rcases honly q hq with hold | ⟨parent, hparent, hleads⟩
    · exact .inl hold
    · cases hentry : fs.tree.get? q with
      | none => exact .inr ⟨rfl, exists_front_of_leading hsame hparent hleads⟩
      | some entry =>
        cases (hkept q entry hentry (.inr hq)).symm.trans hq
        exact .inl rfl

theorem GainsDirectories.addsParents (h : fs.GainsDirectories fs' p.leading) :
    fs.AddsParents fs' p :=
  addsParents_of_leading h.workingDirectory (fun q entry hentry _ => h.kept q entry hentry)
    fun q hq => (h.only q _ hq).imp_right And.right

theorem IsWritten.addsParents (h : fs.IsWritten fs' p content place) : fs.AddsParents fs' p := by
  have hnew : ∀ q, fs'.tree.get? q = some .directory → q ≠ place := by
    rintro q hq rfl
    cases h.file.symm.trans hq
  have hold : ∀ q, fs.tree.get? q = some .directory → q ≠ place := by
    rintro q hq rfl
    exact h.noDirectory hq
  refine addsParents_of_leading h.workingDirectory (fun q entry hentry hdirectory => ?_)
    fun q hq => (h.only q _ (hnew q hq) hq).imp_right And.right
  refine h.kept q entry ?_ hentry
  rcases hdirectory with rfl | hdirectory
  · exact hold q hentry
  · exact hnew q hdirectory

theorem IsWritten.file_iff (h : fs.IsWritten fs' p content place) {q : Place} (hq : q ≠ place)
    {other : ByteArray} :
    fs'.tree.get? q = some (.file other) ↔ fs.tree.get? q = some (.file other) := by
  refine ⟨fun hfile => ?_, h.kept q _ hq⟩
  rcases h.only q _ hq hfile with hold | ⟨hdirectory, _⟩
  · exact hold
  · cases hdirectory

/-- **Writing is all or nothing.** A write that fails leaves no temporary file. A path that leads
down is written just if it is free. -/
theorem writes_whole_or_not_at_all (fs : Files) (p : Path) (content : ByteArray) :
    ((∃ after place, fs.writeWhole p content = (.ok (), after)
        ∧ after.entry p = .ok (.file content)
        ∧ after.LeadsTo p place ∧ after.tree.get? place = some (.file content)
        ∧ (∀ q other, q ≠ place →
          (after.tree.get? q = some (.file other) ↔ fs.tree.get? q = some (.file other)))
        ∧ fs.AddsParents after p)
      ∨ ∃ e after, fs.writeWhole p content = (.error e, after)
        ∧ (∀ q other, after.tree.get? q = some (.file other) ↔ fs.tree.get? q = some (.file other))
        ∧ fs.AddsParents after p)
    ∧ (fs.tree.get? fs.workingDirectory = some .directory → ".." ∉ p.names →
      ((fs.writeWhole p content).1 = .ok () ↔ fs.IsFree p)) := by
  constructor
  · rcases fs.writeWhole_cases p content with ⟨e, after, hwrite, h⟩ | ⟨after, place, hwrite, h⟩
    · exact .inr ⟨e, after, hwrite, fun _ _ => h.file_iff, h.addsParents⟩
    · exact .inl ⟨after, place, hwrite, h.entry, h.leads, h.file, fun _ _ hq => h.file_iff hq,
        h.addsParents⟩
  · intro hworking hdown
    have hstart : fs.tree.get? (fs.origin p) = some .directory := by
      rw [origin]
      split
      · rfl
      · exact hworking
    constructor
    · intro hok
      rcases fs.writeWhole_cases p content with ⟨e, after, hwrite, _⟩ | ⟨after, place, _, h⟩
      · simp [hwrite] at hok
      · exact h.isFree hdown (roomy_of_writeWhole hok)
    · intro hfree
      exact hfree.writeWhole hdown hstart

/-- Where nothing is yet, a file is written together with the directory it is to be in. -/
theorem empty_tree_gains_file_in_directory :
    let fs : Files := ⟨.empty, []⟩
    let after := (fs.writeWhole ⟨"a/b"⟩ "x".toUTF8).2
    (fs.writeWhole ⟨"a/b"⟩ "x".toUTF8).1 = .ok ()
      ∧ after.entry ⟨"a/b"⟩ = .ok (.file "x".toUTF8) := by
  intro fs after
  have hfree : fs.IsFree ⟨"a/b"⟩ := by decide +kernel
  obtain ⟨hwrite, hfree_iff⟩ := writes_whole_or_not_at_all fs ⟨"a/b"⟩ "x".toUTF8
  have hok := (hfree_iff rfl (by decide +kernel)).2 hfree
  rcases hwrite with ⟨_, _, hwritten, hentry, _⟩ | ⟨_, _, hfailed, _⟩
  · obtain rfl : _ = after := (congrArg Prod.snd hwritten).symm
    exact ⟨hok, hentry⟩
  · rw [hfailed] at hok
    cases hok

end ActionRegistry.Files
