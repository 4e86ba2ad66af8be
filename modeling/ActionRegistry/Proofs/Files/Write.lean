import ActionRegistry.Proofs.Files.Tree

/-!
# Writing changes one file

A file is written in three steps: the directories that lead to it are made where they are missing, a
temporary file is put beside its place, and the temporary file is moved there. The first step only
adds directories. The name of the temporary file is used nowhere, so the files are as before the
second step wherever the third one does not get to the end. So a write that fails adds directories
at most, and one that succeeds changes one file.
-/

namespace ActionRegistry

namespace Files

variable {fs mid fs' : Files} {p : Path} {place : Place} {content : ByteArray}

/-! ### New directories -/

/-- Files with new directories, to which some paths lead. All else is as before. -/
structure GainsDirectories (before after : Files) (paths : List Path) : Prop where
  workingDirectory : after.workingDirectory = before.workingDirectory
  kept : ∀ place entry, before.tree.get? place = some entry → after.tree.get? place = some entry
  only : ∀ place entry, after.tree.get? place = some entry → before.tree.get? place = some entry
    ∨ (entry = .directory ∧ ∃ p ∈ paths, after.LeadsTo p place)

namespace GainsDirectories

variable {paths more : List Path}

theorem of_get?_eq (hsame : fs'.workingDirectory = fs.workingDirectory)
    (hget : ∀ q, fs'.tree.get? q = fs.tree.get? q) : fs.GainsDirectories fs' paths where
  workingDirectory := hsame
  kept q _ hq := (hget q).trans hq
  only q _ hq := .inl ((hget q).symm.trans hq)

theorem refl (fs : Files) : fs.GainsDirectories fs paths := of_get?_eq rfl fun _ => rfl

theorem leadsTo (h : fs.GainsDirectories fs' paths) (hp : fs.LeadsTo p place) :
    fs'.LeadsTo p place :=
  hp.of_directories h.workingDirectory fun q => h.kept q .directory

theorem trans (h : fs.GainsDirectories mid paths) (h' : mid.GainsDirectories fs' paths) :
    fs.GainsDirectories fs' paths where
  workingDirectory := h'.workingDirectory.trans h.workingDirectory
  kept q entry hq := h'.kept q entry (h.kept q entry hq)
  only q entry hq := by
    rcases h'.only q entry hq with hmid | hnew
    · refine (h.only q entry hmid).imp_right fun ⟨hentry, p, hp, hleads⟩ => ?_
      exact ⟨hentry, p, hp, h'.leadsTo hleads⟩
    · exact .inr hnew

theorem mono (h : fs.GainsDirectories fs' paths) (hmore : ∀ p ∈ paths, p ∈ more) :
    fs.GainsDirectories fs' more where
  workingDirectory := h.workingDirectory
  kept := h.kept
  only q entry hq :=
    (h.only q entry hq).imp_right fun ⟨hentry, p, hp, hleads⟩ => ⟨hentry, p, hmore p hp, hleads⟩

theorem file_iff (h : fs.GainsDirectories fs' paths) :
    fs'.tree.get? place = some (.file content) ↔ fs.tree.get? place = some (.file content) := by
  refine ⟨fun hfile => ?_, h.kept place _⟩
  rcases h.only place _ hfile with hold | ⟨hdirectory, _⟩
  · exact hold
  · cases hdirectory

end GainsDirectories

theorem gainsDirectories_makeDirectory (h : fs.makeDirectory p = .ok fs') :
    fs.GainsDirectories fs' [p] := by
  rw [makeDirectory] at h
  obtain ⟨given, hgiven, h⟩ := Result.bind_eq_ok_iff.1 h
  cases given with
  | none => cases h
  | some place =>
    obtain ⟨_, hleads, hplace⟩ := newPlace_eq_some hgiven
    cases hfree : fs.tree.get? place with
    | some entry => simp [hfree] at h
    | none =>
      simp only [hfree, Option.isSome_none, Bool.false_eq_true, if_false, Except.ok.injEq] at h
      subst h
      have hget : ∀ q, (fs.tree.put place .directory).get? q
          = if q = place then some .directory else fs.tree.get? q :=
        fun q => FileTree.get?_put fs.tree hplace .directory
      have hkept : ∀ q entry, fs.tree.get? q = some entry →
          (fs.tree.put place .directory).get? q = some entry := by
        intro q entry hq
        have hne : q ≠ place := by
          rintro rfl
          cases hfree.symm.trans hq
        rw [hget, if_neg hne, hq]
      refine ⟨rfl, hkept, fun q entry hq => ?_⟩
      by_cases hq' : q = place
      · subst hq'
        have hentry : some .directory = some entry := ((hget q).trans (if_pos rfl)).symm.trans hq
        cases hentry
        have hnew : (fs.withTree (fs.tree.put q .directory)).LeadsTo p q :=
          hleads.of_directories rfl fun q => hkept q .directory
        exact .inr ⟨rfl, p, List.mem_singleton_self p, hnew⟩
      · exact .inl (((hget q).trans (if_neg hq')).symm.trans hq)

/-- Making directories adds directories, also where it fails on the way. -/
theorem gainsDirectories_makeDirectories (fs : Files) (paths : List Path) :
    fs.GainsDirectories (fs.makeDirectories paths).2 paths := by
  induction paths generalizing fs with
  | nil => exact .refl fs
  | cons p parents ih =>
    have hmade : ∀ {fs made : Files}, fs.makeDirectory p = .ok made →
        fs.GainsDirectories made (p :: parents) := fun h =>
      (gainsDirectories_makeDirectory h).mono (by simp)
    have hpresent : ∀ (fs : Files) (e : FileError),
        (if fs.hasDirectory p then (.ok (), fs) else (.error e, fs) : Outcome).2 = fs := by
      intro fs e
      split <;> rfl
    rw [makeDirectories]
    split
    · exact .refl fs
    · simp only
      cases hp : fs.makeDirectory p with
      | ok made => exact hmade hp
      | error e =>
        by_cases he : e = .notFound
        · -- The parents are made, and then the directory is tried again.
          subst he
          have hparents := (ih fs).mono fun q hq => List.mem_cons_of_mem p hq
          simp only
          rcases hrest : fs.makeDirectories parents with ⟨_ | _, mid⟩
          · rw [hrest] at hparents
            exact hparents
          · rw [hrest] at hparents
            simp only
            cases hagain : mid.makeDirectory p with
            | ok made => exact hparents.trans (hmade hagain)
            | error e =>
              rw [hpresent]
              exact hparents
        · cases e with
          | notFound => exact absurd rfl he
          | _ =>
            rw [hpresent]
            exact .refl fs

/-! ### The temporary file -/

theorem length_le_foldl_max {names : List String} {name : String} (h : name ∈ names) :
    name.length ≤ names.foldl (fun n name => max n name.length) 0 := by
  have hmax : (0 :: names.map String.length).max?
      = some (names.foldl (fun n name => max n name.length) 0) := by
    rw [List.max?_cons', List.foldl_map]
  exact (List.max?_eq_some_iff.1 hmax).2 _ (List.mem_cons_of_mem 0 (List.mem_map_of_mem h))

/-- Nothing in a tree has the unused name: it is longer than every name there. -/
theorem get?_unusedName (t : FileTree) (inside : Place) :
    t.get? (inside ++ [unusedName t]) = none := by
  rw [FileTree.get?_of_ne_nil t (by simp), List.lookup_eq_none_iff]
  intro e he
  rw [bne_iff_ne]
  intro heq
  have hmem : unusedName t ∈ t.entries.flatMap (·.1) :=
    List.mem_flatMap.2 ⟨e, he, heq ▸ List.mem_concat_self⟩
  have hle := length_le_foldl_max hmem
  have hlength : (unusedName t).length
      = 4 + (t.entries.flatMap (·.1)).foldl (fun n name => max n name.length) 0 := by
    simp [unusedName, show ".tmp".length = 4 from rfl]
  omega

theorem addTemporary_eq_ok {inside : Path} {temporary : Place}
    (h : fs.addTemporary inside content = .ok (temporary, fs')) :
    temporary ≠ [] ∧ fs.tree.get? temporary = none
      ∧ fs' = fs.withTree (fs.tree.put temporary (.file content)) := by
  rw [addTemporary] at h
  obtain ⟨place, _, h⟩ := Result.bind_eq_ok_iff.1 h
  obtain ⟨place', _, h⟩ := Result.bind_eq_ok_iff.1 h
  split at h
  · cases h
  · cases h
    exact ⟨by simp, get?_unusedName fs.tree place', rfl⟩

/-! ### Writing -/

/-- Files after one file was written. The path leads to it, and all else is as before, but for new
directories on the way. -/
structure IsWritten (before after : Files) (p : Path) (content : ByteArray) (place : Place) :
    Prop where
  workingDirectory : after.workingDirectory = before.workingDirectory
  entry : after.entry p = .ok (.file content)
  leads : after.LeadsTo p place
  file : after.tree.get? place = some (.file content)
  noDirectory : before.tree.get? place ≠ some .directory
  kept : ∀ q entry, q ≠ place → before.tree.get? q = some entry → after.tree.get? q = some entry
  only : ∀ q entry, q ≠ place → after.tree.get? q = some entry → before.tree.get? q = some entry
    ∨ (entry = .directory ∧ ∃ parent ∈ p.leading, after.LeadsTo parent q)

theorem moveFile_eq_ok {source : Place} (h : fs.moveFile source p = .ok fs') :
    ∃ place entry, fs.newPlace p = .ok (some place) ∧ p.demandsDirectory = false
      ∧ fs.tree.get? place ≠ some .directory ∧ fs.tree.get? source = some entry
      ∧ fs' = fs.withTree ((fs.tree.remove source).put place entry) := by
  rw [moveFile] at h
  obtain ⟨given, hgiven, h⟩ := Result.bind_eq_ok_iff.1 h
  cases given with
  | none => cases h
  | some place =>
    cases hdemands : p.demandsDirectory with
    | true => simp [hdemands] at h
    | false =>
      simp only [hdemands, Bool.false_eq_true, if_false] at h
      split at h
      · cases h
      next hsource hdirectory =>
        cases h
        exact ⟨place, _, hgiven, rfl, hdirectory, hsource, rfl⟩
      · cases h

/-- A temporary file that is moved is gone, and its content is where the path leads. -/
theorem isWritten_of_moveFile {added : Files} {temporary : Place} (htemporary : temporary ≠ [])
    (hfree : fs.tree.get? temporary = none)
    (hadded : added = fs.withTree (fs.tree.put temporary (.file content)))
    (h : added.moveFile temporary p = .ok fs') : ∃ place, fs.IsWritten fs' p content place := by
  obtain ⟨place, entry, hgiven, hdemands, hdirectory, hentry, rfl⟩ := moveFile_eq_ok h
  obtain ⟨hcheck, hleads, hplace⟩ := newPlace_eq_some hgiven
  have hput : ∀ q, added.tree.get? q
      = if q = temporary then some (.file content) else fs.tree.get? q := by
    subst hadded
    exact fun q => FileTree.get?_put fs.tree htemporary (.file content)
  cases ((hput temporary).trans (if_pos rfl)).symm.trans hentry
  have hafter : ∀ q, ((added.tree.remove temporary).put place (.file content)).get? q
      = if q = place then some (.file content) else fs.tree.get? q := by
    intro q
    rw [FileTree.get?_put _ hplace, FileTree.get?_remove _ htemporary, hput]
    by_cases hq : q = temporary
    · rw [if_pos hq, hq, hfree]
    · rw [if_neg hq, if_neg hq]
  -- The temporary file is no directory, and the target is none: all directories stay.
  have hdirectories : ∀ q, added.tree.get? q = some .directory →
      q ≠ place ∧ fs.tree.get? q = some .directory := by
    intro q hq
    have htemp : q ≠ temporary := by
      rintro rfl
      cases hentry.symm.trans hq
    refine ⟨?_, ((hput q).trans (if_neg htemp)).symm.trans hq⟩
    rintro rfl
    exact hdirectory hq
  have hleads : (added.withTree ((added.tree.remove temporary).put place (.file content))).LeadsTo
      p place := hleads.of_directories rfl fun q hq =>
    ((hafter q).trans (if_neg (hdirectories q hq).1)).trans (hdirectories q hq).2
  have hfile := (hafter place).trans (if_pos rfl)
  refine ⟨place, hadded ▸ rfl, entry_eq_file_iff.2 ⟨hcheck, hdemands, place, hleads, hfile⟩, hleads,
    hfile, fun hold => ?_, fun q entry hq hentry => ((hafter q).trans (if_neg hq)).trans hentry,
    fun q entry hq hentry => .inl (((hafter q).trans (if_neg hq)).symm.trans hentry)⟩
  have htemp : place ≠ temporary := by
    rintro rfl
    cases hfree.symm.trans hold
  exact hdirectory (((hput place).trans (if_neg htemp)).trans hold)

/-- Directories on the way of a path may be made before the file is written. -/
theorem GainsDirectories.isWritten (h : fs.GainsDirectories mid p.leading)
    (h' : mid.IsWritten fs' p content place) : fs.IsWritten fs' p content place where
  workingDirectory := h'.workingDirectory.trans h.workingDirectory
  entry := h'.entry
  leads := h'.leads
  file := h'.file
  noDirectory hold := h'.noDirectory (h.kept place _ hold)
  kept q entry hq hentry := h'.kept q entry hq (h.kept q entry hentry)
  only q entry hq hentry := by
    rcases h'.only q entry hq hentry with hmid | hnew
    · refine (h.only q entry hmid).imp_right fun ⟨hdirectory, parent, hparent, hleads⟩ => ?_
      refine ⟨hdirectory, parent, hparent, hleads.of_directories h'.workingDirectory ?_⟩
      intro r hr
      refine h'.kept r _ ?_ hr
      rintro rfl
      exact h'.noDirectory hr
    · exact .inr hnew

def makeLeading (fs : Files) (p : Path) : Outcome :=
  match p.parent? with
  | some parent => fs.makeDirectories parent.ancestors
  | none => (.ok (), fs)

theorem gainsDirectories_makeLeading (fs : Files) (p : Path) :
    fs.GainsDirectories (fs.makeLeading p).2 p.leading := by
  rw [makeLeading, Path.leading]
  cases p.parent? with
  | none => exact .refl fs
  | some parent => exact gainsDirectories_makeDirectories fs parent.ancestors

theorem writeWhole_eq (fs : Files) (p : Path) (content : ByteArray) :
    fs.writeWhole p content = match fs.makeLeading p with
      | (.error e, mid) => (.error e, mid)
      | (.ok (), mid) =>
        match mid.addTemporary (p.parent?.getD ⟨"."⟩) content with
        | .error e => (.error e, mid)
        | .ok (temporary, added) =>
          match added.moveFile temporary p with
          | .error e => (.error e, added.withTree (added.tree.remove temporary))
          | .ok moved => (.ok (), moved) := rfl

/-- **A write fails and adds directories at most, or it changes one file.** -/
theorem writeWhole_cases (fs : Files) (p : Path) (content : ByteArray) :
    (∃ e after, fs.writeWhole p content = (.error e, after) ∧ fs.GainsDirectories after p.leading)
    ∨ ∃ after place, fs.writeWhole p content = (.ok (), after)
      ∧ fs.IsWritten after p content place := by
  have hmid := gainsDirectories_makeLeading fs p
  rw [writeWhole_eq]
  rcases hmade : fs.makeLeading p with ⟨e | _, mid⟩
  · rw [hmade] at hmid
    exact .inl ⟨e, mid, rfl, hmid⟩
  · rw [hmade] at hmid
    simp only
    cases hadd : mid.addTemporary (p.parent?.getD ⟨"."⟩) content with
    | error e => exact .inl ⟨e, mid, rfl, hmid⟩
    | ok given =>
      obtain ⟨temporary, added⟩ := given
      obtain ⟨htemporary, hfree, hadded⟩ := addTemporary_eq_ok hadd
      simp only
      cases hmove : added.moveFile temporary p with
      | error e =>
        -- The temporary file is taken away again, which leaves what there was before it.
        have hremoved : ∀ q, (added.tree.remove temporary).get? q = mid.tree.get? q := by
          intro q
          rw [FileTree.get?_remove _ htemporary, hadded]
          by_cases hq : q = temporary
          · rw [if_pos hq, hq, hfree]
          · rw [if_neg hq]
            exact (FileTree.get?_put mid.tree htemporary _).trans (if_neg hq)
        have hworking : added.workingDirectory = mid.workingDirectory := by rw [hadded, withTree]
        exact .inl ⟨e, _, rfl, hmid.trans (.of_get?_eq hworking hremoved)⟩
      | ok after =>
        obtain ⟨place, hwritten⟩ := isWritten_of_moveFile htemporary hfree hadded hmove
        exact .inr ⟨after, place, rfl, hmid.isWritten hwritten⟩

/-! ### Reading what was written -/

theorem fromUTF8?_toUTF8 (s : String) : String.fromUTF8? s.toUTF8 = some s := by
  unfold String.fromUTF8?
  rw [String.toUTF8_eq_toByteArray, dif_pos s.isValidUTF8]
  rfl

theorem IsWritten.readText {before after : Files} {p : Path} {text : String} {place : Place}
    (h : before.IsWritten after p text.toUTF8 place) : after.readText p = .ok text := by
  rw [Files.readText, h.entry, Result.ok_bind]
  simp only [fromUTF8?_toUTF8]

end Files

end ActionRegistry
