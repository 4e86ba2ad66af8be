import ActionRegistry.Callback.Name

/-!
# What the name of a callback looks like

The groups in angle brackets are dropped first, which leaves no angle bracket, and the name is what
follows the last double colon of the rest, which leaves no double colon.
-/

namespace ActionRegistry.CallbackName

/-- A text that can be the name of a callback. -/
structure IsIdentifier (name : String) : Prop where
  nonempty : name ≠ ""
  noColons : ¬ [':', ':'] <:+: name.toList
  plain : ∀ c ∈ name.toList, c ∉ ['<', '>', '\x7b', '(', ' ', '&']

theorem noBrackets_of_stripGroups {depth : Nat} {previous : Option Char} {cs path : List Char}
    (h : stripGroups depth previous cs = some path) : ∀ c ∈ path, c ≠ '<' ∧ c ≠ '>' := by
  fun_induction stripGroups depth previous cs generalizing path with
  | case1 =>
    cases h
    simp
  | case2 => cases h
  | case3 _ _ _ ih => exact ih h
  | case4 _ _ _ ih => exact ih h
  | case5 => cases h
  | case6 _ _ _ _ _ ih => exact ih h
  | case7 _ c _ hopen hclose ih =>
    obtain ⟨rest, hrest, rfl⟩ := Option.map_eq_some_iff.1 h
    intro x hx
    rcases List.mem_cons.1 hx with rfl | hx
    · exact ⟨hopen, hclose⟩
    · exact ih hrest x hx
  | case8 _ _ _ _ _ _ ih => exact ih h

theorem noColons_of_afterLastColons?_none {cs : List Char} (h : afterLastColons? cs = none) :
    ¬ [':', ':'] <:+: cs := by
  induction cs with
  | nil => simp
  | cons c cs ih =>
    rw [afterLastColons?] at h
    split at h
    · cases h
    · next hrest =>
      split at h
      · cases h
      · next hstart =>
        rw [List.infix_cons_iff, ← List.isPrefixOf_iff_prefix]
        exact not_or.2 ⟨hstart, ih hrest⟩

theorem afterLastColons?_eq_some {cs found : List Char} (h : afterLastColons? cs = some found) :
    found <:+ cs ∧ ¬ [':', ':'] <:+: found := by
  induction cs with
  | nil => cases h
  | cons c cs ih =>
    rw [afterLastColons?] at h
    split at h
    · next hrest =>
      cases h
      exact ⟨(ih hrest).1.trans (List.suffix_cons c cs), (ih hrest).2⟩
    · next hrest =>
      split at h
      · cases h
        have hsuffix := List.tail_suffix cs
        refine ⟨hsuffix.trans (List.suffix_cons c cs), fun hcolons => ?_⟩
        exact noColons_of_afterLastColons?_none hrest (hcolons.trans hsuffix.isInfix)
      · cases h

theorem lastSegment_suffix (cs : List Char) : lastSegment cs <:+ cs := by
  rw [lastSegment]
  cases h : afterLastColons? cs with
  | none => exact List.suffix_refl cs
  | some found => exact (afterLastColons?_eq_some h).1

theorem noColons_lastSegment (cs : List Char) : ¬ [':', ':'] <:+: lastSegment cs := by
  rw [lastSegment]
  cases h : afterLastColons? cs with
  | none => exact noColons_of_afterLastColons?_none h
  | some found => exact (afterLastColons?_eq_some h).2

theorem ofTypeName_eq_ok_iff {typeName name : String} :
    ofTypeName typeName = .ok name ↔ ofTypeName? typeName = some name := by
  rw [ofTypeName]
  cases ofTypeName? typeName <;> simp

/-- Every function that has a name has one that looks like a name. -/
theorem isIdentifier_of_ofTypeName? {typeName name : String}
    (hname : ofTypeName? typeName = some name) : IsIdentifier name := by
  simp only [ofTypeName?] at hname
  split at hname
  · cases hname
  · split at hname
    · cases hname
    · next path hpath =>
      split at hname
      · cases hname
      · next hplain =>
        simp only [Bool.or_eq_true, List.any_eq_true, not_or, not_exists, not_and] at hplain
        cases hname
        refine ⟨?_, ?_, fun c hc => ?_⟩
        · simpa using hplain.2
        · simpa using noColons_lastSegment path
        · rw [String.toList_ofList] at hc
          have hmem : c ∈ path := (lastSegment_suffix path).subset hc
          have hbrackets := noBrackets_of_stripGroups hpath c hmem
          have hforeign := hplain.1 c hmem
          simp only [isForeign, Bool.or_eq_true, beq_iff_eq, not_or] at hforeign
          simp [hbrackets, hforeign]

end ActionRegistry.CallbackName
