import ActionRegistry.Proofs.Files.Tree

/-!
# The parents of a path

A parent of a path is a text of its own, put together from the first names of the path. It reads as
these names again, starts where the path starts, and can be used wherever the path can be used.
-/

namespace ActionRegistry.Path

variable {p q : Path} {absolute : Bool} {names : List String}

/-! ### Texts of names -/

theorem splitSlashes_eq (cs : List Char) : splitSlashes cs = cs.splitOn '/' := by
  induction cs with
  | nil => rfl
  | cons c cs ih =>
    rw [splitSlashes, List.splitOn_cons_eq_if_modifyHead, ih]
    by_cases hc : c = '/'
    · simp [hc]
    · rw [if_neg hc, if_neg (by simpa using hc)]
      cases hpieces : cs.splitOn '/' with
      | nil => exact absurd hpieces (List.splitOn_ne_nil '/' cs)
      | cons piece pieces => rfl

theorem mem_of_mem_splitSlashes {cs piece : List Char} (h : piece ∈ splitSlashes cs) :
    ∀ c ∈ piece, c ≠ '/' ∧ c ∈ cs := by
  induction cs generalizing piece with
  | nil =>
    obtain rfl := List.mem_singleton.1 h
    exact nofun
  | cons c cs ih =>
    have hrest : ∀ {piece}, piece ∈ splitSlashes cs → ∀ d ∈ piece, d ≠ '/' ∧ d ∈ c :: cs :=
      fun hpiece d hd => (ih hpiece d hd).imp_right (List.mem_cons_of_mem c)
    rw [splitSlashes] at h
    split at h
    · rcases List.mem_cons.1 h with rfl | h
      · exact nofun
      · exact hrest h
    next hc =>
      have hfirst : c ≠ '/' ∧ c ∈ c :: cs := ⟨hc, List.mem_cons_self⟩
      cases hpieces : splitSlashes cs with
      | nil =>
        obtain rfl : piece = [c] := by simpa [hpieces] using h
        exact List.forall_mem_singleton.2 hfirst
      | cons first pieces =>
        rw [hpieces] at h hrest
        rcases List.mem_cons.1 h with rfl | h
        · exact List.forall_mem_cons.2 ⟨hfirst, hrest List.mem_cons_self⟩
        · exact hrest (List.mem_cons_of_mem first h)

/-- A text that can stand between slashes. -/
def IsName (name : String) : Prop := name ≠ "" ∧ '/' ∉ name.toList

theorem toList_ofSteps (absolute : Bool) (names : List String) :
    (ofSteps absolute names).text.toList
      = (if absolute then ['/'] else []) ++ ['/'].intercalate (names.map String.toList) := by
  rw [ofSteps, String.toList_append, String.toList_intercalate]
  cases absolute <;> rfl

theorem pieces_ofSteps (h : ∀ name ∈ names, IsName name) : (ofSteps absolute names).pieces
    = (if absolute then [""] else []) ++ (if names = [] then [""] else names) := by
  have hsplit : (['/'].intercalate (names.map String.toList)).splitOn '/'
      = if names = [] then [[]] else names.map String.toList := by
    split
    next hnames => simp [hnames]
    next hnames =>
      refine List.splitOn_intercalate '/' ?_ (by simpa using hnames)
      intro chars hchars
      obtain ⟨name, hname, rfl⟩ := List.mem_map.1 hchars
      exact (h name hname).2
  have hback : (if names = [] then [[]] else names.map String.toList).map String.ofList
      = if names = [] then [""] else names := by
    split <;> simp
  rw [pieces, splitSlashes_eq, toList_ofSteps]
  cases absolute with
  | false => simpa [hsplit] using hback
  | true => simpa [hsplit, List.splitOn_cons_eq_if_modifyHead] using hback

/-- The names that a text was put together from are those between its slashes. -/
theorem filter_pieces_ofSteps (h : ∀ name ∈ names, IsName name) :
    (ofSteps absolute names).pieces.filter (· != "") = names := by
  have hkept : names.filter (· != "") = names :=
    List.filter_eq_self.2 fun name hname => by simpa using (h name hname).1
  rw [pieces_ofSteps h, List.filter_append]
  split <;> split <;> simp_all

theorem names_eq (p : Path) : p.names = (p.pieces.filter (· != "")).filter (· != ".") := by
  rw [names, List.filter_filter]
  exact List.filter_congr fun name _ => Bool.and_comm _ _

theorem names_ofSteps (h : ∀ name ∈ names, IsName name) :
    (ofSteps absolute names).names = names.filter (· != ".") := by
  rw [names_eq, filter_pieces_ofSteps h]

theorem lastName?_ofSteps (h : ∀ name ∈ names, IsName name) :
    (ofSteps absolute names).lastName? = names.getLast? := by
  rw [lastName?, filter_pieces_ofSteps h]

theorem isAbsolute_ofSteps (h : ∀ name ∈ names, IsName name) :
    (ofSteps absolute names).isAbsolute = absolute := by
  rw [isAbsolute, toList_ofSteps]
  cases absolute with
  | true => rfl
  | false =>
    cases names with
    | nil => rfl
    | cons name names =>
      obtain ⟨hname, hslash⟩ := h name List.mem_cons_self
      obtain ⟨c, cs, hcs⟩ : ∃ c cs, name.toList = c :: cs :=
        List.exists_cons_of_ne_nil (by simpa using hname)
      have hc : c ≠ '/' := by
        rintro rfl
        exact hslash (by rw [hcs]; exact List.mem_cons_self)
      cases names with
      | nil => simp [hcs, hc]
      | cons next names => simp [hcs, hc]

/-! ### The steps of a path -/

theorem mem_of_mem_pieces {piece : String} (h : piece ∈ p.pieces) :
    ∀ c ∈ piece.toList, c ≠ '/' ∧ c ∈ p.text.toList := by
  obtain ⟨cs, hcs, rfl⟩ := List.mem_map.1 h
  simpa using mem_of_mem_splitSlashes hcs

theorem isName_of_mem_names {name : String} (h : name ∈ p.names) : IsName name ∧ name ≠ "." := by
  obtain ⟨hpiece, hne⟩ := List.mem_filter.1 h
  have hne : name ≠ "" ∧ name ≠ "." := by simpa using hne
  exact ⟨⟨hne.1, fun hslash => (mem_of_mem_pieces hpiece '/' hslash).1 rfl⟩, hne.2⟩

/-- The names of a path without dots, of which one may come first if the path is not absolute. -/
def IsSteps (absolute : Bool) (steps : List String) : Prop :=
  ∃ names, (∀ name ∈ names, IsName name ∧ name ≠ ".")
    ∧ (steps = names ∨ (absolute = false ∧ steps = "." :: names))

theorem isSteps_steps (p : Path) : IsSteps p.isAbsolute p.steps := by
  refine ⟨p.names, fun name hname => isName_of_mem_names hname, ?_⟩
  rw [steps]
  split
  next hdot =>
    refine .inr ⟨?_, rfl⟩
    rw [isAbsolute, ← Bool.not_eq_true, beq_iff_eq]
    intro hslash
    obtain ⟨cs, hcs⟩ := List.head?_eq_some_iff.1 hslash
    simp [pieces, hcs, splitSlashes] at hdot
  next => exact .inl rfl

theorem IsSteps.of_prefix {steps front : List String} (h : IsSteps absolute steps)
    (hfront : front <+: steps) : IsSteps absolute front := by
  obtain ⟨names, hnames, rfl | ⟨hrelative, rfl⟩⟩ := h
  · exact ⟨front, fun name hname => hnames name (hfront.subset hname), .inl rfl⟩
  · rcases List.prefix_cons_iff.1 hfront with rfl | ⟨rest, rfl, hrest⟩
    · exact ⟨[], nofun, .inl rfl⟩
    · exact ⟨rest, fun name hname => hnames name (hrest.subset hname), .inr ⟨hrelative, rfl⟩⟩

theorem IsSteps.isName {steps : List String} (h : IsSteps absolute steps) :
    ∀ name ∈ steps, IsName name := by
  obtain ⟨names, hnames, rfl | ⟨_, rfl⟩⟩ := h
  · exact fun name hname => (hnames name hname).1
  · refine List.forall_mem_cons.2 ⟨⟨by decide, by decide⟩, fun name hname => ?_⟩
    exact (hnames name hname).1

/-- A dot can only come first. -/
theorem IsSteps.eq_nil_of_dot {front : List String} (h : IsSteps absolute (front ++ ["."])) :
    front = [] := by
  obtain ⟨names, hnames, heq | ⟨_, heq⟩⟩ := h
  · exact absurd rfl (hnames "." (heq ▸ List.mem_concat_self)).2
  · cases front with
    | nil => rfl
    | cons first front =>
      obtain ⟨_, rfl⟩ := List.cons.inj heq
      exact absurd rfl (hnames "." List.mem_concat_self).2

theorem filter_ne_dot (h : ∀ name ∈ names, IsName name ∧ name ≠ ".") :
    names.filter (· != ".") = names :=
  List.filter_eq_self.2 fun name hname => by simpa using (h name hname).2

theorem steps_ofSteps {steps : List String} (h : IsSteps absolute steps) :
    (ofSteps absolute steps).steps = steps := by
  rw [Path.steps, names_ofSteps h.isName, pieces_ofSteps h.isName]
  obtain ⟨names, hnames, rfl | ⟨rfl, rfl⟩⟩ := h
  · rw [filter_ne_dot hnames]
    refine if_neg fun hdot => ?_
    cases absolute with
    | true => simp at hdot
    | false =>
      cases steps with
      | nil => simp at hdot
      | cons name rest =>
        exact (hnames name List.mem_cons_self).2 (by simpa using hdot)
  · simp [filter_ne_dot hnames]

theorem filter_dropLast_steps (p : Path) :
    p.steps.dropLast.filter (· != ".") = p.names.dropLast := by
  have hnames : p.names.dropLast.filter (· != ".") = p.names.dropLast :=
    filter_ne_dot fun name hname => isName_of_mem_names (List.dropLast_subset _ hname)
  rw [steps]
  split
  · cases hp : p.names with
    | nil => rfl
    | cons name rest =>
      rw [hp] at hnames
      simpa using hnames
  · exact hnames

/-! ### What leads to a path -/

theorem mem_ancestorsOf {reversed : List String} :
    q ∈ ancestorsOf absolute reversed
      ↔ ∃ front, front <+: reversed.reverse ∧ q = ofSteps absolute front := by
  induction reversed with
  | nil => simp [ancestorsOf]
  | cons name reversed ih =>
    rw [ancestorsOf, List.mem_cons, ih, List.reverse_cons]
    simp only [List.prefix_concat_iff, or_and_right, exists_or, exists_eq_left]

theorem steps_ne_nil (h : p.names ≠ []) : p.steps ≠ [] := by
  rw [steps]
  split
  · exact List.cons_ne_nil _ _
  · exact h

theorem isSteps_dropLast (p : Path) : IsSteps p.isAbsolute p.steps.dropLast :=
  p.isSteps_steps.of_prefix (List.dropLast_prefix _)

theorem parent?_eq (h : p.steps ≠ []) :
    p.parent? = some (ofSteps p.isAbsolute p.steps.dropLast) := by
  rw [parent?, if_neg (by simpa using h)]

theorem leading_eq (h : p.steps ≠ []) :
    p.leading = ancestorsOf p.isAbsolute p.steps.dropLast.reverse := by
  have hsteps := p.isSteps_dropLast
  rw [leading, parent?_eq h]
  simp [ancestors, steps_ofSteps hsteps, isAbsolute_ofSteps hsteps.isName]

/-- What leads to a path starts where the path starts, and has the first of its names. -/
theorem names_of_mem_leading (h : q ∈ p.leading) :
    q.isAbsolute = p.isAbsolute ∧ q.names <+: p.names.dropLast := by
  by_cases hsteps : p.steps = []
  · simp [leading, parent?, hsteps] at h
  · rw [leading_eq hsteps, mem_ancestorsOf, List.reverse_reverse] at h
    obtain ⟨front, hfront, rfl⟩ := h
    have hname : ∀ name ∈ front, IsName name := fun name hname =>
      p.isSteps_steps.isName name (List.dropLast_subset _ (hfront.subset hname))
    refine ⟨isAbsolute_ofSteps hname, ?_⟩
    rw [names_ofSteps hname, ← filter_dropLast_steps]
    exact hfront.filter _

theorem exists_lastName? (h : p.demandsDirectory = false) :
    ∃ name, p.lastName? = some name ∧ name ≠ "." ∧ name ∈ p.names := by
  have hpieces : p.pieces ≠ [] := by
    rw [pieces, splitSlashes_eq]
    simp
  obtain ⟨name, hname⟩ : ∃ name, p.pieces.getLast? = some name :=
    ⟨_, List.getLast?_eq_some_getLast hpieces⟩
  obtain ⟨hempty, hdot⟩ : name ≠ "" ∧ name ≠ "." := by
    simpa [demandsDirectory, hname] using h
  obtain ⟨before, hbefore⟩ := List.getLast?_eq_some_iff.1 hname
  refine ⟨name, ?_, hdot, ?_⟩
  · simp [lastName?, hbefore, hempty]
  · exact List.mem_filter.2 ⟨hbefore ▸ List.mem_concat_self, by simp [hempty, hdot]⟩

/-! ### Paths that can be used -/

theorem intercalate_pieces (p : Path) : String.intercalate "/" p.pieces = p.text := by
  have hback : p.pieces.map String.toList = p.text.toList.splitOn '/' := by
    rw [pieces, splitSlashes_eq]
    simp
  rw [← String.toList_inj, String.toList_intercalate, hback]
  exact List.intercalate_splitOn '/'

/-- The octets of texts, each with a slash. -/
def extent : List String → Nat
  | [] => 0
  | text :: texts => text.utf8ByteSize + 1 + extent texts

@[simp] theorem extent_nil : extent [] = 0 := rfl

@[simp] theorem extent_cons (text : String) (texts : List String) :
    extent (text :: texts) = text.utf8ByteSize + 1 + extent texts := rfl

theorem extent_le_of_sublist {texts more : List String} (h : texts.Sublist more) :
    extent texts ≤ extent more := by
  induction h with
  | slnil => exact Nat.le_refl _
  | cons text _ ih => rw [extent_cons]; omega
  | cons_cons text _ ih => rw [extent_cons, extent_cons]; omega

theorem utf8ByteSize_intercalate (texts : List String) :
    (String.intercalate "/" texts).utf8ByteSize = extent texts - 1 := by
  induction texts with
  | nil => rfl
  | cons text rest ih =>
    cases rest with
    | nil => simp
    | cons next rest =>
      have hslash : "/".utf8ByteSize = 1 := rfl
      rw [String.intercalate_cons_cons, String.utf8ByteSize_append, String.utf8ByteSize_append, ih,
        hslash]
      simp only [extent_cons]
      omega

theorem mem_intercalate {c : Char} {pieces : List (List Char)}
    (h : c ∈ ['/'].intercalate pieces) : c = '/' ∨ ∃ piece ∈ pieces, c ∈ piece := by
  induction pieces with
  | nil => cases h
  | cons piece rest ih =>
    cases rest with
    | nil => exact .inr ⟨piece, List.mem_singleton_self piece, by simpa using h⟩
    | cons next rest =>
      rw [List.intercalate_cons_cons, List.mem_append, List.mem_append, List.mem_singleton] at h
      rcases h with (hc | hc) | hc
      · exact .inr ⟨piece, List.mem_cons_self, hc⟩
      · exact .inl hc
      · obtain hslash | ⟨other, hother, hc⟩ := ih hc
        · exact .inl hslash
        · exact .inr ⟨other, List.mem_cons_of_mem piece hother, hc⟩

/-- The steps of a path are among its pieces, after the empty one that starts an absolute path. -/
theorem exists_pieces_eq (p : Path) : ∃ rest, rest ≠ [] ∧ p.steps.Sublist rest
    ∧ p.pieces = (if p.isAbsolute then [""] else []) ++ rest := by
  cases habsolute : p.isAbsolute with
  | false =>
    refine ⟨p.pieces, ?_, ?_, rfl⟩
    · rw [pieces, splitSlashes_eq]
      simp
    · rw [steps]
      split
      next hdot =>
        obtain ⟨rest, hrest⟩ := List.head?_eq_some_iff.1 hdot
        rw [names, hrest, List.filter_cons_of_neg (by decide)]
        exact List.Sublist.cons_cons "." List.filter_sublist
      next => exact List.filter_sublist
  | true =>
    rw [isAbsolute, beq_iff_eq] at habsolute
    obtain ⟨cs, hcs⟩ := List.head?_eq_some_iff.1 habsolute
    have hpieces : p.pieces = "" :: (splitSlashes cs).map String.ofList := by
      simp [pieces, hcs, splitSlashes]
    refine ⟨(splitSlashes cs).map String.ofList, ?_, ?_, hpieces⟩
    · rw [splitSlashes_eq]
      simp
    · rw [steps, if_neg (by simp [hpieces]), names, hpieces,
        List.filter_cons_of_neg (by decide)]
      exact List.filter_sublist

theorem utf8ByteSize_ofSteps_le {front : List String} (h : front <+: p.steps) :
    (ofSteps p.isAbsolute front).text.utf8ByteSize ≤ p.text.utf8ByteSize := by
  obtain ⟨rest, hrest, hsteps, hpieces⟩ := p.exists_pieces_eq
  have hextent : extent front ≤ extent rest := extent_le_of_sublist (h.sublist.trans hsteps)
  have hpositive : 0 < extent rest := by
    obtain ⟨first, others, rfl⟩ := List.exists_cons_of_ne_nil hrest
    rw [extent_cons]
    omega
  rw [← p.intercalate_pieces, hpieces, ofSteps, String.utf8ByteSize_append,
    utf8ByteSize_intercalate, utf8ByteSize_intercalate]
  cases p.isAbsolute with
  | false => simp; omega
  | true =>
    have hslash : "/".utf8ByteSize = 1 := rfl
    simp [hslash]
    omega

theorem checkPath_eq_ok_iff : Files.checkPath p = .ok () ↔ '\x00' ∉ p.text.toList ∧ p.text ≠ ""
    ∧ p.text.utf8ByteSize ≤ FileTree.longestPath := by
  rw [Files.checkPath]
  split
  · simp_all
  · split
    · simp_all
    · split <;> simp_all

/-- The first steps of a path can be used where the path can, unless their text is empty. -/
theorem checkPath_ofSteps {front : List String} (h : Files.checkPath p = .ok ())
    (hfront : front <+: p.steps) (htext : (ofSteps p.isAbsolute front).text ≠ "") :
    Files.checkPath (ofSteps p.isAbsolute front) = .ok () := by
  obtain ⟨hzero, _, hlength⟩ := checkPath_eq_ok_iff.1 h
  obtain ⟨rest, _, hsteps, hpieces⟩ := p.exists_pieces_eq
  refine checkPath_eq_ok_iff.2 ⟨fun hmem => ?_, htext, ?_⟩
  · rw [toList_ofSteps, List.mem_append] at hmem
    rcases hmem with hmem | hmem
    · cases p.isAbsolute <;> simp at hmem
    · rcases mem_intercalate hmem with hmem | ⟨piece, hpiece, hmem⟩
      · cases hmem
      · obtain ⟨name, hname, rfl⟩ := List.mem_map.1 hpiece
        have hname : name ∈ p.pieces := by
          rw [hpieces]
          exact List.mem_append_right _ (hsteps.subset (hfront.subset hname))
        exact hzero (mem_of_mem_pieces hname _ hmem).2
  · exact Nat.le_trans (utf8ByteSize_ofSteps_le hfront) hlength

end ActionRegistry.Path
