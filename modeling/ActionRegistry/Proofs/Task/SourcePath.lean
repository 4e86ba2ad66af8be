import Mathlib.Data.List.Infix
import ActionRegistry.Proofs.Text.Octets
import ActionRegistry.Task.SourcePath

/-!
# Where the path of a source is cut

Only a rooted path is cut: one that starts with a slash, or has a colon as its second octet. What is
left of it comes after a slash. It starts with the directory for sources and has no such directory
behind a slash again, or else it is a single name; neither is cut a second time.
-/

namespace ActionRegistry.SourcePath

variable {cs rest : List Char}

/-- The directory for sources, behind a slash. -/
def sourceMark : List Char := "/src/".toList

/-- A suffix of a path that is all of it or comes after a slash. -/
def IsTail (rest cs : List Char) : Prop := rest = cs ∨ ∃ front, cs = front ++ '/' :: rest

theorem IsTail.suffix (h : IsTail rest cs) : rest <:+ cs := by
  rcases h with rfl | ⟨front, rfl⟩
  · exact List.suffix_rfl
  · exact ⟨front ++ ['/'], by simp⟩

/-! ### The two cuts -/

theorem fromLastSource?_eq_none_iff : fromLastSource? cs = none ↔ ¬sourceMark <:+: cs := by
  induction cs with
  | nil => simp [fromLastSource?, sourceMark]
  | cons c cs ih =>
    rw [fromLastSource?, List.infix_cons_iff, not_or]
    cases hrest : fromLastSource? cs with
    | some found =>
      have hmark : sourceMark <:+: cs := by simpa [hrest] using ih
      simp [hmark]
    | none =>
      have hnot : ¬sourceMark <:+: cs := ih.1 hrest
      have hstart : ['/', 's', 'r', 'c', '/'].isPrefixOf (c :: cs) = true
          ↔ sourceMark <+: c :: cs := List.isPrefixOf_iff_prefix
      simp [hnot, hstart]

theorem fromLastSource?_eq_some (h : fromLastSource? cs = some rest) :
    "src/".toList <+: rest ∧ ¬sourceMark <:+: rest ∧ ∃ front, cs = front ++ '/' :: rest := by
  induction cs with
  | nil => cases h
  | cons c cs ih =>
    rw [fromLastSource?] at h
    cases hrest : fromLastSource? cs with
    | some found =>
      rw [hrest] at h ih
      obtain rfl := Option.some.inj h
      obtain ⟨hstart, hlast, front, hfront⟩ := ih rfl
      exact ⟨hstart, hlast, c :: front, by rw [hfront, List.cons_append]⟩
    | none =>
      simp only [hrest] at h
      split at h
      next hprefix =>
        obtain rfl := Option.some.inj h
        obtain ⟨rfl, hstart⟩ := List.cons_prefix_cons.1 (List.isPrefixOf_iff_prefix.1 hprefix)
        exact ⟨hstart, fromLastSource?_eq_none_iff.1 hrest, [], rfl⟩
      · cases h

theorem lastName_eq_self (h : '/' ∉ cs) : lastName cs = cs := by
  cases cs with
  | nil => rfl
  | cons c cs =>
    rw [List.mem_cons, not_or] at h
    obtain ⟨hc, hcs⟩ := h
    rw [lastName, if_neg (by simpa using hcs), if_neg (Ne.symm hc)]

theorem not_mem_lastName (cs : List Char) : '/' ∉ lastName cs := by
  induction cs with
  | nil => exact List.not_mem_nil
  | cons c cs ih =>
    rw [lastName]
    by_cases hcs : '/' ∈ cs
    · rwa [if_pos (by simpa using hcs)]
    · rw [if_neg (by simpa using hcs)]
      by_cases hc : c = '/'
      · rwa [if_pos hc]
      · rw [if_neg hc]
        rw [List.mem_cons, not_or]
        exact ⟨Ne.symm hc, hcs⟩

theorem isTail_lastName (cs : List Char) : IsTail (lastName cs) cs := by
  induction cs with
  | nil => exact .inl rfl
  | cons c cs ih =>
    rw [lastName]
    by_cases hcs : '/' ∈ cs
    · rw [if_pos (by simpa using hcs)]
      rcases ih with hall | ⟨front, hfront⟩
      · rw [← hall] at hcs
        exact absurd hcs (not_mem_lastName cs)
      · exact .inr ⟨c :: front, congrArg (c :: ·) hfront⟩
    · rw [if_neg (by simpa using hcs)]
      by_cases hc : c = '/'
      · rw [if_pos hc, hc]
        exact .inr ⟨[], rfl⟩
      · rw [if_neg hc]
        exact .inl rfl

/-! ### Rooted paths -/

/-- A path that starts with a slash or has a colon as its second octet. -/
def IsRooted (cs : List Char) : Prop :=
  cs.head? = some '/' ∨ (Text.octets (String.ofList cs))[1]? = some (.ofNat ':'.toNat)

theorem isAbsolute_iff : isAbsolute cs = true ↔ IsRooted cs := by
  rw [IsRooted, Text.octets_second_ascii (by decide), String.toList_ofList]
  match cs with
  | [] => simp [isAbsolute]
  | [c] =>
    by_cases hc : c = '/'
    · simp [isAbsolute, hc]
    · simp [isAbsolute, hc]
  | c :: d :: rest =>
    by_cases hc : c = '/'
    · simp [isAbsolute, hc]
    · by_cases hd : d = ':'
      · simp [isAbsolute, hc, hd]
      · simp [isAbsolute, hc, hd]

/-- What is left of a path with slashes. -/
def cut (cs : List Char) : List Char :=
  if isAbsolute cs then (fromLastSource? cs).getD (lastName cs) else cs

theorem toList_ofFile (file : String) : (ofFile file).toList = cut (withSlashes file.toList) := by
  rw [ofFile, cut]
  split <;> simp

theorem cut_of_not_isRooted (h : ¬IsRooted cs) : cut cs = cs := by
  rw [cut, if_neg (mt isAbsolute_iff.1 h)]

theorem cut_of_source (h : IsRooted cs) (hsource : sourceMark <:+: cs) :
    "src/".toList <+: cut cs ∧ ¬sourceMark <:+: cut cs ∧ ∃ front, cs = front ++ '/' :: cut cs := by
  rw [cut, if_pos (isAbsolute_iff.2 h)]
  cases hfound : fromLastSource? cs with
  | none => exact absurd hsource (fromLastSource?_eq_none_iff.1 hfound)
  | some found => exact fromLastSource?_eq_some hfound

theorem cut_of_no_source (h : IsRooted cs) (hsource : ¬sourceMark <:+: cs) :
    cut cs = lastName cs := by
  rw [cut, if_pos (isAbsolute_iff.2 h), fromLastSource?_eq_none_iff.2 hsource, Option.getD_none]

theorem isTail_cut (cs : List Char) : IsTail (cut cs) cs := by
  by_cases h : IsRooted cs
  · by_cases hsource : sourceMark <:+: cs
    · exact .inr (cut_of_source h hsource).2.2
    · rw [cut_of_no_source h hsource]
      exact isTail_lastName cs
  · exact .inl (cut_of_not_isRooted h)

theorem head?_cut_ne (cs : List Char) : (cut cs).head? ≠ some '/' := by
  intro hhead
  by_cases h : IsRooted cs
  · by_cases hsource : sourceMark <:+: cs
    · obtain ⟨after, hafter⟩ := (cut_of_source h hsource).1
      rw [← hafter] at hhead
      exact absurd hhead (by simp)
    · rw [cut_of_no_source h hsource] at hhead
      exact not_mem_lastName cs (List.mem_of_head? hhead)
  · rw [cut_of_not_isRooted h] at hhead
    exact h (.inl hhead)

theorem cut_cut (cs : List Char) : cut (cut cs) = cut cs := by
  by_cases h : IsRooted cs
  · by_cases hsource : sourceMark <:+: cs
    · obtain ⟨after, hafter⟩ := (cut_of_source h hsource).1
      have hrelative : isAbsolute (cut cs) = false := by
        rw [← hafter]
        rfl
      rw [cut, if_neg (by simp [hrelative])]
    · rw [cut_of_no_source h hsource]
      by_cases hname : IsRooted (lastName cs)
      · have hnone : ¬sourceMark <:+: lastName cs := fun hmark =>
          not_mem_lastName cs (hmark.subset (by decide))
        rw [cut_of_no_source hname hnone, lastName_eq_self (not_mem_lastName cs)]
      · exact cut_of_not_isRooted hname
  · rw [cut_of_not_isRooted h, cut_of_not_isRooted h]

/-! ### Slashes for backslashes -/

theorem not_mem_withSlashes (cs : List Char) : '\\' ∉ withSlashes cs := by
  intro hmem
  obtain ⟨c, _, hc⟩ := List.mem_map.1 hmem
  split at hc
  · cases hc
  next hne => exact hne hc

theorem withSlashes_eq_self (h : '\\' ∉ cs) : withSlashes cs = cs := by
  induction cs with
  | nil => rfl
  | cons c cs ih =>
    rw [List.mem_cons, not_or] at h
    change (if c = '\\' then '/' else c) :: withSlashes cs = c :: cs
    rw [if_neg (Ne.symm h.1), ih h.2]

/-- **Where a path is cut.** A rooted path is cut at its last directory for sources, or else after
its last slash; another is kept. -/
theorem path_keeps_tail_from_last_source (file : String) :
    let whole := withSlashes file.toList
    let kept := (ofFile file).toList
    '\\' ∉ kept ∧ kept.head? ≠ some '/' ∧ IsTail kept whole ∧ ofFile (ofFile file) = ofFile file
    ∧ (¬IsRooted whole → kept = whole)
    ∧ (IsRooted whole → sourceMark <:+: whole →
        "src/".toList <+: kept ∧ ¬sourceMark <:+: kept ∧ ∃ front, whole = front ++ '/' :: kept)
    ∧ (IsRooted whole → ¬sourceMark <:+: whole → '/' ∉ kept ∧ IsTail kept whole) := by
  intro whole kept
  have hkept : kept = cut whole := toList_ofFile file
  have htail : IsTail kept whole := hkept ▸ isTail_cut whole
  have hslashes : '\\' ∉ kept := fun hmem =>
    not_mem_withSlashes file.toList (htail.suffix.subset hmem)
  have hagain : ofFile (ofFile file) = ofFile file := by
    apply String.toList_inj.1
    rw [toList_ofFile, withSlashes_eq_self hslashes]
    change cut kept = kept
    rw [hkept, cut_cut]
  refine ⟨hslashes, ?_, htail, hagain, ?_, ?_, ?_⟩
  · rw [hkept]
    exact head?_cut_ne whole
  · intro h
    rw [hkept, cut_of_not_isRooted h]
  · intro h hsource
    rw [hkept]
    exact cut_of_source h hsource
  · intro h hsource
    refine ⟨?_, htail⟩
    rw [hkept, cut_of_no_source h hsource]
    exact not_mem_lastName whole

end ActionRegistry.SourcePath
