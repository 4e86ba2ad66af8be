import ActionRegistry.CommandLine.Execute
import ActionRegistry.Proofs.Files.Path

/-!
# The nearest marked directory

The places above a place are its prefixes, and they are searched from the longest to the empty one.
So what is found first is a place below all others that hold the marker. A place between it and the
start has fewer places above it, but the one that was found is still among them, and so it is found
again from there.
-/

namespace ActionRegistry

variable {t t' : FileTree} {name : String} {place between root other : Place}

/-! ### Places above a place -/

theorem mem_upwards : other ∈ upwards place ↔ other <+: place := by
  rw [upwards, List.mem_map]
  constructor
  · rintro ⟨n, _, rfl⟩
    exact List.take_prefix n place
  · intro h
    refine ⟨other.length, ?_, (List.prefix_iff_eq_take.1 h).symm⟩
    have hlength := h.length_le
    rw [List.mem_reverse, List.mem_range]
    omega

theorem pairwise_upwards (place : Place) :
    (upwards place).Pairwise fun near far => far <+: near := by
  rw [upwards, List.pairwise_map, List.pairwise_reverse]
  apply List.pairwise_lt_range.imp
  intro m n hmn
  exact List.take_prefix_take_left (Nat.le_of_lt hmn)

namespace FileTree

theorem holdsDirectory_iff :
    t.holdsDirectory name place = true ↔ t.get? (place ++ [name]) = some .directory := by
  rw [holdsDirectory, beq_iff_eq]

/-! ### One marker -/

/-- The nearest place above a place, itself included, that holds a directory of a name. -/
structure IsNearest (t : FileTree) (name : String) (place root : Place) : Prop where
  above : root <+: place
  holds : t.get? (root ++ [name]) = some .directory
  nearest : ∀ other, other <+: place → t.get? (other ++ [name]) = some .directory → other <+: root

/-- No place above a place, itself included, holds a directory of a name. -/
def IsUnmarked (t : FileTree) (name : String) (place : Place) : Prop :=
  ∀ other, other <+: place → t.get? (other ++ [name]) ≠ some .directory

theorem isNearest_of_nearest? (h : t.nearest? name place = some root) :
    t.IsNearest name place root := by
  obtain ⟨hroot, before, after, hupwards, hbefore⟩ := List.find?_eq_some_iff_append.1 h
  have horder := pairwise_upwards place
  rw [hupwards, List.pairwise_append, List.pairwise_cons] at horder
  refine ⟨?_, holdsDirectory_iff.1 hroot, fun other habove hother => ?_⟩
  · apply mem_upwards.1
    rw [hupwards]
    exact List.mem_append_right before List.mem_cons_self
  · have hmem := mem_upwards.2 habove
    rw [hupwards, List.mem_append, List.mem_cons] at hmem
    rcases hmem with hmem | rfl | hmem
    · have hnot := hbefore other hmem
      rw [holdsDirectory_iff.2 hother] at hnot
      cases hnot
    · exact List.prefix_rfl
    · exact horder.2.1.1 other hmem

theorem isUnmarked_of_nearest? (h : t.nearest? name place = none) : t.IsUnmarked name place := by
  intro other habove hother
  exact List.find?_eq_none.1 h other (mem_upwards.2 habove) (holdsDirectory_iff.2 hother)

theorem IsNearest.unique (h : t.IsNearest name place root) (h' : t.IsNearest name place other) :
    root = other := by
  apply (h'.nearest root h.above h.holds).eq_of_length_le
  exact (h.nearest other h'.above h'.holds).length_le

theorem IsUnmarked.not_isNearest (h : t.IsUnmarked name place) : ¬t.IsNearest name place root :=
  fun hroot => h root hroot.above hroot.holds

theorem IsNearest.of_between (h : t.IsNearest name place root) (hroot : root <+: between)
    (hplace : between <+: place) : t.IsNearest name between root where
  above := hroot
  holds := h.holds
  nearest other hother := h.nearest other (hother.trans hplace)

theorem IsUnmarked.of_prefix (h : t.IsUnmarked name place) (hplace : between <+: place) :
    t.IsUnmarked name between :=
  fun other hother => h other (hother.trans hplace)

section Directories

variable (hsame : ∀ q, t'.get? q = some .directory ↔ t.get? q = some .directory)

include hsame

theorem IsNearest.of_directories (h : t.IsNearest name place root) :
    t'.IsNearest name place root where
  above := h.above
  holds := (hsame _).2 h.holds
  nearest other hother hholds := h.nearest other hother ((hsame _).1 hholds)

theorem IsUnmarked.of_directories (h : t.IsUnmarked name place) : t'.IsUnmarked name place :=
  fun other hother hholds => h other hother ((hsame _).1 hholds)

end Directories

/-- The places above a directory are directories. -/
theorem IsRooted.directory_of_prefix (h : t.IsRooted) (hplace : t.get? place = some .directory)
    (hroot : root <+: place) : t.get? root = some .directory := by
  by_cases hall : root = place
  · rwa [hall]
  · have hshort : root.length < place.length :=
      Nat.lt_of_not_le fun hle => hall (hroot.eq_of_length_le hle)
    rw [List.prefix_iff_eq_take.1 hroot]
    exact h place .directory hplace root.length hshort

/-! ### Both markers -/

/-- The root of the project around a place. The directory of the task graph goes before that of the
repository, wherever it is found. -/
inductive IsRoot (t : FileTree) (place : Place) : Place → Prop where
  | taskGraph {root : Place} (nearest : t.IsNearest "taskcluster" place root) : IsRoot t place root
  | repository {root : Place} (noTaskGraph : t.IsUnmarked "taskcluster" place)
    (nearest : t.IsNearest ".git" place root) : IsRoot t place root
  | unmarked (noTaskGraph : t.IsUnmarked "taskcluster" place)
    (noRepository : t.IsUnmarked ".git" place) : IsRoot t place place

namespace IsRoot

theorem above (h : t.IsRoot place root) : root <+: place := by
  cases h with
  | taskGraph hnearest => exact hnearest.above
  | repository _ hnearest => exact hnearest.above
  | unmarked => exact List.prefix_rfl

theorem unique (h : t.IsRoot place root) (h' : t.IsRoot place other) : root = other := by
  cases h with
  | taskGraph hnearest =>
    cases h' with
    | taskGraph hnearest' => exact hnearest.unique hnearest'
    | repository hnone => exact absurd hnearest hnone.not_isNearest
    | unmarked hnone => exact absurd hnearest hnone.not_isNearest
  | repository hnone hnearest =>
    cases h' with
    | taskGraph hnearest' => exact absurd hnearest' hnone.not_isNearest
    | repository _ hnearest' => exact hnearest.unique hnearest'
    | unmarked _ hnone' => exact absurd hnearest hnone'.not_isNearest
  | unmarked hnone hnone' =>
    cases h' with
    | taskGraph hnearest => exact absurd hnearest hnone.not_isNearest
    | repository _ hnearest => exact absurd hnearest hnone'.not_isNearest
    | unmarked => rfl

/-- The root is found again from every place on the way to it. -/
theorem of_between (h : t.IsRoot place root) (hroot : root <+: between)
    (hplace : between <+: place) : t.IsRoot between root := by
  cases h with
  | taskGraph hnearest => exact .taskGraph (hnearest.of_between hroot hplace)
  | repository hnone hnearest =>
    exact .repository (hnone.of_prefix hplace) (hnearest.of_between hroot hplace)
  | unmarked hnone hnone' =>
    -- Without a marker the root is the start itself, so nothing else is between.
    obtain rfl : between = place := hplace.eq_of_length_le hroot.length_le
    exact .unmarked hnone hnone'

theorem of_directories (hsame : ∀ q, t'.get? q = some .directory ↔ t.get? q = some .directory)
    (h : t.IsRoot place root) : t'.IsRoot place root := by
  cases h with
  | taskGraph hnearest => exact .taskGraph (hnearest.of_directories hsame)
  | repository hnone hnearest =>
    exact .repository (hnone.of_directories hsame) (hnearest.of_directories hsame)
  | unmarked hnone hnone' =>
    exact .unmarked (hnone.of_directories hsame) (hnone'.of_directories hsame)

end IsRoot

end FileTree

namespace Files

variable {fs : Files}

theorem isRoot_projectRoot (fs : Files) : fs.tree.IsRoot fs.workingDirectory fs.projectRoot := by
  rw [projectRoot]
  cases htaskGraph : fs.tree.nearest? taskGraphMarker fs.workingDirectory with
  | some root => exact .taskGraph (FileTree.isNearest_of_nearest? htaskGraph)
  | none =>
    have hnone := FileTree.isUnmarked_of_nearest? htaskGraph
    cases hrepository : fs.tree.nearest? repositoryMarker fs.workingDirectory with
    | some root => exact .repository hnone (FileTree.isNearest_of_nearest? hrepository)
    | none => exact .unmarked hnone (FileTree.isUnmarked_of_nearest? hrepository)

theorem projectRoot_eq_iff : fs.projectRoot = root ↔ fs.tree.IsRoot fs.workingDirectory root := by
  constructor
  · rintro rfl
    exact fs.isRoot_projectRoot
  · exact fs.isRoot_projectRoot.unique

/-- A name that stands for itself in a path, and can be that of a directory. -/
def IsDirectoryName (name : String) : Prop :=
  Path.IsName name ∧ name ≠ "." ∧ name ≠ ".." ∧ name.utf8ByteSize ≤ FileTree.longestName

theorem leadsTo_ofSteps (hrooted : fs.tree.IsRooted) {entry : Entry}
    (hplace : fs.tree.get? place = some entry) (hnames : ∀ name ∈ place, IsDirectoryName name) :
    fs.LeadsTo (.ofSteps true place) place := by
  have hname : ∀ name ∈ place, Path.IsName name := fun name hmem => (hnames name hmem).1
  have hsteps : (Path.ofSteps true place).names = place := by
    rw [Path.names_ofSteps hname]
    exact Path.filter_ne_dot fun name hmem => (hnames name hmem).imp_right And.left
  rw [LeadsTo, origin, Path.isAbsolute_ofSteps hname, if_pos rfl, hsteps]
  exact FileTree.walk_of_isRooted hrooted hplace fun name hmem => (hnames name hmem).2.2

end Files

namespace CommandLine

/-- **The root of a project** is the nearest marked directory, and all directories on the way up to
it have the same root. -/
theorem root_is_nearest_marked_directory (fs : Files) (r : Request) (h : r.root = none) :
    ∃ root, r.rootIn fs = .ofSteps true root
      ∧ (∀ other, fs.tree.IsRoot fs.workingDirectory other ↔ other = root)
      ∧ (∀ tree : FileTree,
        (∀ q, tree.get? q = some .directory ↔ fs.tree.get? q = some .directory) →
          r.rootIn { fs with tree } = r.rootIn fs)
      ∧ r.rootIn { fs with workingDirectory := root } = r.rootIn fs
      ∧ (∀ between, root <+: between → between <+: fs.workingDirectory →
          r.rootIn { fs with workingDirectory := between } = r.rootIn fs)
      ∧ (fs.tree.IsRooted → fs.tree.get? fs.workingDirectory = some .directory →
          (∀ name ∈ fs.workingDirectory, Files.IsDirectoryName name) →
          fs.LeadsTo (r.rootIn fs) root ∧ fs.tree.get? root = some .directory) := by
  have hpath : ∀ files, r.rootIn files = .ofSteps true files.projectRoot := by
    intro files
    rw [Request.rootIn, h, Option.getD_none]
  have hroot := fs.isRoot_projectRoot
  have hbetween : ∀ between, fs.projectRoot <+: between → between <+: fs.workingDirectory →
      r.rootIn { fs with workingDirectory := between } = r.rootIn fs := by
    intro between habove hbelow
    have hagain : ({ fs with workingDirectory := between } : Files).projectRoot
        = fs.projectRoot := Files.projectRoot_eq_iff.2 (hroot.of_between habove hbelow)
    rw [hpath, hpath, hagain]
  refine ⟨fs.projectRoot, hpath fs, fun other => ?_, fun tree hsame => ?_,
    hbetween _ List.prefix_rfl hroot.above, hbetween, fun hrooted hworking hnames => ?_⟩
  · rw [← Files.projectRoot_eq_iff]
    exact eq_comm
  · have hagain : ({ fs with tree } : Files).projectRoot = fs.projectRoot :=
      Files.projectRoot_eq_iff.2 (hroot.of_directories hsame)
    rw [hpath, hpath, hagain]
  · have hplace := hrooted.directory_of_prefix hworking hroot.above
    refine ⟨?_, hplace⟩
    rw [hpath]
    exact Files.leadsTo_ofSteps hrooted hplace fun name hmem =>
      hnames name (hroot.above.subset hmem)

/-- A repository that is nearer is passed over, and so is a file with the name of the marker. -/
theorem root_is_above_nearer_repository :
    let fs : Files := ⟨.ofEntries [(["a", "taskcluster"], .directory),
      (["a", "b", ".git"], .directory), (["a", "b", "c", "taskcluster"], .file "".toUTF8)],
      ["a", "b", "c"]⟩
    let r : Request := ⟨none, false, .list⟩
    r.root = none ∧ r.rootIn fs = ⟨"/a"⟩
      ∧ r.rootIn { fs with workingDirectory := ["a", "b"] } = ⟨"/a"⟩ := by
  intro fs r
  obtain ⟨root, hpath, hroot, _, _, hbetween, _⟩ := root_is_nearest_marked_directory fs r rfl
  have hnearest : fs.tree.IsNearest "taskcluster" fs.workingDirectory ["a"] := by
    refine ⟨⟨["b", "c"], rfl⟩, by decide +kernel, fun other hother hholds => ?_⟩
    simp only [fs, List.prefix_cons_iff, List.prefix_nil] at hother
    obtain rfl | ⟨_, rfl, rfl | ⟨_, rfl, rfl | ⟨_, rfl, rfl⟩⟩⟩ := hother
    · exact List.nil_prefix
    · exact List.prefix_rfl
    · exact absurd hholds (by decide +kernel)
    · exact absurd hholds (by decide +kernel)
  obtain rfl := (hroot _).1 (.taskGraph hnearest)
  have hsame := hbetween ["a", "b"] ⟨["b"], rfl⟩ ⟨["c"], rfl⟩
  have htext : Path.ofSteps true ["a"] = ⟨"/a"⟩ := by decide +kernel
  exact ⟨rfl, hpath.trans htext, hsame.trans (hpath.trans htext)⟩

end CommandLine

end ActionRegistry
