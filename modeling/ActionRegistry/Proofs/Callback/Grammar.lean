import ActionRegistry.Proofs.Callback.Name

/-!
# Groups in the names of functions

What a character is for the groups in angle brackets depends on it and on the character before it.
Of what the characters are, a grammar of nested groups tells which texts have their brackets
balanced and what stands outside of the groups. The depth counter gets through a balanced text with
the depth with which it started, so it accepts just what the grammar accepts, and the contents of a
group do not count wherever it stands.
-/

namespace ActionRegistry.CallbackName

/-- What a character is for the groups. -/
inductive Mark where
  | opening
  | closing
  /-- The second half of an arrow. -/
  | arrow
  | other (c : Char)
  deriving DecidableEq, Repr

def markOf (previous : Option Char) (c : Char) : Mark :=
  if c = '<' then .opening
  else if c = '>' then if previous = some '-' then .arrow else .closing
  else .other c

def marks : (previous : Option Char) → List Char → List Mark
  | _, [] => []
  | previous, c :: cs => markOf previous c :: marks (some c) cs

/-- Balanced marks, and what is outside of all groups. The second half of an arrow is left out there
too. -/
inductive Outside : List Mark → List Char → Prop
  | nil : Outside [] []
  | other (c : Char) {ms : List Mark} {cs : List Char} (h : Outside ms cs) :
    Outside (.other c :: ms) (c :: cs)
  | arrow {ms : List Mark} {cs : List Char} (h : Outside ms cs) : Outside (.arrow :: ms) cs
  | group {inner ms : List Mark} {hidden cs : List Char} (hinner : Outside inner hidden)
    (h : Outside ms cs) : Outside (.opening :: (inner ++ .closing :: ms)) cs

/-- The marks outside of all groups, from a depth on. -/
def stripMarks : (depth : Nat) → List Mark → Option (List Char)
  | depth, [] => if depth = 0 then some [] else none
  | depth, .opening :: ms => stripMarks (depth + 1) ms
  | depth, .arrow :: ms => stripMarks depth ms
  | 0, .closing :: _ => none
  | depth + 1, .closing :: ms => stripMarks depth ms
  | 0, .other c :: ms => (stripMarks 0 ms).map (c :: ·)
  | depth + 1, .other _ :: ms => stripMarks (depth + 1) ms

theorem stripGroups_eq_stripMarks (depth : Nat) (previous : Option Char) (cs : List Char) :
    stripGroups depth previous cs = stripMarks depth (marks previous cs) := by
  fun_induction stripGroups depth previous cs with
  | case1 => rfl
  | case2 _ _ h => simp [marks, stripMarks, h]
  | case3 _ _ _ ih => simpa [marks, markOf, stripMarks] using ih
  | case4 _ _ _ ih => simpa [marks, markOf, stripMarks] using ih
  | case5 _ _ harrow => simp [marks, markOf, stripMarks, harrow]
  | case6 _ _ harrow _ _ ih => simpa [marks, markOf, stripMarks, harrow] using ih
  | case7 _ _ _ hopen hclose ih => simp [marks, markOf, stripMarks, hopen, hclose, ih]
  | case8 _ _ _ hopen hclose _ ih => simpa [marks, markOf, stripMarks, hopen, hclose] using ih

/-! ### Groups are skipped -/

section Skip

variable {ms : List Mark} {cs : List Char}

/-- Inside of a group, balanced marks do not count. -/
theorem Outside.stripMarks_append_succ (h : Outside ms cs) (depth : Nat) (rest : List Mark) :
    stripMarks (depth + 1) (ms ++ rest) = stripMarks (depth + 1) rest := by
  induction h generalizing depth rest with
  | nil => rfl
  | other c _ ih => exact ih depth rest
  | arrow _ ih => exact ih depth rest
  | @group inner ms _ _ _ _ ihinner ih =>
    rw [List.cons_append, List.append_assoc, stripMarks, ihinner, List.cons_append, stripMarks, ih]

theorem stripMarks_group (h : Outside ms cs) (depth : Nat) (rest : List Mark) :
    stripMarks depth (.opening :: (ms ++ .closing :: rest)) = stripMarks depth rest := by
  rw [stripMarks, h.stripMarks_append_succ, stripMarks]

theorem stripMarks_append_group (h : Outside ms cs) (depth : Nat) (before rest : List Mark) :
    stripMarks depth (before ++ .opening :: (ms ++ .closing :: rest))
      = stripMarks depth (before ++ rest) := by
  induction before generalizing depth with
  | nil => exact stripMarks_group h depth rest
  | cons m before ih =>
    cases m with
    | opening => exact ih (depth + 1)
    | arrow => exact ih depth
    | closing =>
      cases depth with
      | zero => rfl
      | succ depth => exact ih depth
    | other c =>
      cases depth with
      | zero => rw [List.cons_append, List.cons_append, stripMarks, stripMarks, ih]
      | succ depth => exact ih (depth + 1)

end Skip

/-! ### The counter accepts the grammar -/

theorem Outside.stripMarks_eq {ms : List Mark} {cs : List Char} (h : Outside ms cs) :
    stripMarks 0 ms = some cs := by
  induction h with
  | nil => rfl
  | other c _ ih => rw [stripMarks, ih, Option.map_some]
  | arrow _ ih => exact ih
  | group hinner _ _ ih => rw [stripMarks_group hinner, ih]

/-- Marks that close as many groups as the depth tells, and what is outside behind them. -/
def Closes : (depth : Nat) → List Mark → List Char → Prop
  | 0, ms, cs => Outside ms cs
  | depth + 1, ms, cs => ∃ inner hidden rest, ms = inner ++ .closing :: rest
    ∧ Outside inner hidden ∧ Closes depth rest cs

section Closes

variable {depth : Nat} {ms : List Mark} {cs : List Char}

theorem Closes.opening (h : Closes (depth + 1) ms cs) : Closes depth (.opening :: ms) cs := by
  obtain ⟨inner, hidden, rest, rfl, hinner, hrest⟩ := h
  cases depth with
  | zero => exact .group hinner hrest
  | succ depth =>
    obtain ⟨inner', hidden', rest', rfl, hinner', hrest'⟩ := hrest
    exact ⟨.opening :: (inner ++ .closing :: inner'), hidden', rest', by simp,
      .group hinner hinner', hrest'⟩

theorem Closes.arrow (h : Closes depth ms cs) : Closes depth (.arrow :: ms) cs := by
  cases depth with
  | zero => exact Outside.arrow h
  | succ depth =>
    obtain ⟨inner, hidden, rest, rfl, hinner, hrest⟩ := h
    exact ⟨.arrow :: inner, hidden, rest, rfl, .arrow hinner, hrest⟩

theorem Closes.other (h : Closes (depth + 1) ms cs) (c : Char) :
    Closes (depth + 1) (.other c :: ms) cs := by
  obtain ⟨inner, hidden, rest, rfl, hinner, hrest⟩ := h
  exact ⟨.other c :: inner, c :: hidden, rest, rfl, .other c hinner, hrest⟩

theorem closes_of_stripMarks (h : stripMarks depth ms = some cs) : Closes depth ms cs := by
  fun_induction stripMarks depth ms generalizing cs with
  | case1 =>
    cases h
    exact .nil
  | case2 => cases h
  | case3 _ _ ih => exact (ih h).opening
  | case4 _ _ ih => exact (ih h).arrow
  | case5 => cases h
  | case6 _ _ ih => exact ⟨[], [], _, rfl, .nil, ih h⟩
  | case7 c _ ih =>
    obtain ⟨rest, hrest, rfl⟩ := Option.map_eq_some_iff.1 h
    exact Outside.other c (ih hrest)
  | case8 _ c _ ih => exact (ih h).other c

end Closes

theorem stripGroups_eq_some_iff {cs path : List Char} :
    stripGroups 0 none cs = some path ↔ Outside (marks none cs) path := by
  rw [stripGroups_eq_stripMarks]
  exact ⟨closes_of_stripMarks, Outside.stripMarks_eq⟩

/-! ### The arguments of a group -/

/-- Whether the angle brackets of a text match, but for those of arrows. -/
def IsBalanced (s : String) : Prop := ∃ path, Outside (marks none s.toList) path

theorem marks_append (previous : Option Char) (cs cs' : List Char) :
    marks previous (cs ++ cs') = marks previous cs ++ marks (cs.getLast?.or previous) cs' := by
  induction cs generalizing previous with
  | nil => rfl
  | cons c cs ih =>
    rw [List.cons_append, marks, marks, ih, List.cons_append, List.getLast?_cons]
    cases cs.getLast? <;> rfl

theorem marks_of_ne {previous : Option Char} (h : previous ≠ some '-') (cs : List Char) :
    marks previous cs = marks none cs := by
  cases cs with
  | nil => rfl
  | cons c cs => simp [marks, markOf, h]

/-- A group that ends in no arrow is a group wherever it stands. -/
theorem marks_group {args : List Char} (h : args.getLast? ≠ some '-') (before rest : List Char) :
    marks none (before ++ '<' :: (args ++ '>' :: rest)) = marks none before
      ++ .opening :: (marks none args ++ .closing :: marks (some '>') rest) := by
  have hlast : args.getLast?.or (some '<') ≠ some '-' := by
    cases hargs : args.getLast? with
    | none => simp
    | some c => simpa [hargs] using h
  have hclose : marks (args.getLast?.or (some '<')) ('>' :: rest)
      = .closing :: marks (some '>') rest := by
    rw [marks, markOf, if_neg (by decide), if_pos rfl, if_neg hlast]
  rw [marks_append, marks, marks_append, hclose, marks_of_ne (by decide) args]
  rfl

theorem stripGroups_group {args : List Char} {hidden : List Char}
    (hargs : Outside (marks none args) hidden) (hlast : args.getLast? ≠ some '-')
    (before rest : List Char) : stripGroups 0 none (before ++ '<' :: (args ++ '>' :: rest))
      = stripMarks 0 (marks none before ++ marks (some '>') rest) := by
  rw [stripGroups_eq_stripMarks, marks_group hlast, stripMarks_append_group hargs]

/-- What starts a text before a bracket or ends with the bracket does not see what is behind it. -/
theorem prefix_append_bracket_iff {start : List Char} (h : '<' ∉ start.dropLast)
    (before rest : List Char) : start <+: before ++ '<' :: rest ↔ start <+: before ++ ['<'] := by
  induction before generalizing start with
  | nil =>
    cases start with
    | nil => simp
    | cons c start =>
      cases start with
      | nil => simp
      | cons d start =>
        rw [List.dropLast_cons_cons, List.mem_cons, not_or] at h
        simp [Ne.symm h.1]
  | cons b before ih =>
    cases start with
    | nil => simp
    | cons c start =>
      have hstart : '<' ∉ start.dropLast := by
        cases start with
        | nil => simp
        | cons d start =>
          rw [List.dropLast_cons_cons, List.mem_cons, not_or] at h
          exact h.2
      rw [List.cons_append, List.cons_append, List.cons_prefix_cons, List.cons_prefix_cons,
        ih hstart]

/-! ### The last segment -/

/-- What follows the last double colon of a path, or the path if there is none. -/
inductive IsLastSegment (path : List Char) : List Char → Prop
  | whole (h : ¬ [':', ':'] <:+: path) : IsLastSegment path path
  | behind {before name : List Char} (hpath : path = before ++ ':' :: ':' :: name)
    (hlast : ¬ [':', ':'] <:+: ':' :: name) : IsLastSegment path name

theorem exists_of_afterLastColons? {path name : List Char} (h : afterLastColons? path = some name) :
    ∃ before, path = before ++ ':' :: ':' :: name ∧ ¬ [':', ':'] <:+: ':' :: name := by
  induction path with
  | nil => cases h
  | cons c cs ih =>
    rw [afterLastColons?] at h
    split at h
    · next hrest =>
      cases h
      obtain ⟨before, rfl, hlast⟩ := ih hrest
      exact ⟨c :: before, rfl, hlast⟩
    · next hrest =>
      split at h
      · next hstart =>
        obtain ⟨tail, htail⟩ := List.isPrefixOf_iff_prefix.1 hstart
        obtain ⟨rfl, rfl⟩ := List.cons.inj htail
        cases h
        exact ⟨[], rfl, noColons_of_afterLastColons?_none hrest⟩
      · cases h

theorem afterLastColons?_eq_none_iff {path : List Char} :
    afterLastColons? path = none ↔ ¬ [':', ':'] <:+: path := by
  refine ⟨noColons_of_afterLastColons?_none, fun h => ?_⟩
  rw [Option.eq_none_iff_forall_ne_some]
  intro name hname
  obtain ⟨before, rfl, _⟩ := exists_of_afterLastColons? hname
  exact h ⟨before, name, by simp⟩

theorem afterLastColons?_append (before : List Char) {name : List Char}
    (hlast : ¬ [':', ':'] <:+: ':' :: name) :
    afterLastColons? (before ++ ':' :: ':' :: name) = some name := by
  induction before with
  | nil =>
    rw [List.nil_append, afterLastColons?, afterLastColons?_eq_none_iff.2 hlast]
    rfl
  | cons b before ih => rw [List.cons_append, afterLastColons?, ih]

theorem isLastSegment_iff {path name : List Char} :
    IsLastSegment path name ↔ lastSegment path = name := by
  rw [lastSegment]
  constructor
  · rintro (hnone | ⟨rfl, hlast⟩)
    · rw [afterLastColons?_eq_none_iff.2 hnone, Option.getD_none]
    · rw [afterLastColons?_append _ hlast, Option.getD_some]
  · rintro rfl
    cases h : afterLastColons? path with
    | none => exact .whole (afterLastColons?_eq_none_iff.1 h)
    | some name =>
      obtain ⟨before, hpath, hlast⟩ := exists_of_afterLastColons? h
      exact .behind hpath hlast

/-! ### Names -/

theorem any_isForeign_eq_false_iff {path : List Char} : path.any isForeign = false ↔
    ∀ c ∈ path, c ∉ ['\x7b', '(', ' ', '&'] := by
  simp [isForeign, or_assoc]

theorem any_pointerStarts_eq_false_iff {cs : List Char} :
    (pointerStarts.any fun start => start.toList.isPrefixOf cs) = false
      ↔ ∀ start ∈ pointerStarts, ¬ start.toList <+: cs := by
  simp

theorem ofTypeName?_eq_some_iff {typeName name : String} : ofTypeName? typeName = some name ↔
    (∀ start ∈ pointerStarts, ¬ start.toList <+: typeName.toList)
    ∧ ∃ path, Outside (marks none typeName.toList) path
      ∧ (∀ c ∈ path, c ∉ ['\x7b', '(', ' ', '&']) ∧ IsLastSegment path name.toList ∧ name ≠ "" := by
  simp only [ofTypeName?, ← any_pointerStarts_eq_false_iff, ← any_isForeign_eq_false_iff,
    ← stripGroups_eq_some_iff, isLastSegment_iff]
  constructor
  · intro h
    split at h
    · cases h
    · next hstart =>
      split at h
      · cases h
      · next path hpath =>
        split at h
        · cases h
        · next hplain =>
          rw [Bool.or_eq_true, not_or, Bool.not_eq_true, Bool.not_eq_true] at hplain
          cases h
          refine ⟨Bool.not_eq_true _ ▸ hstart, path, hpath, hplain.1, String.toList_ofList.symm, ?_⟩
          rw [Ne, String.ofList_eq_empty_iff, ← List.isEmpty_iff, hplain.2]
          exact Bool.false_ne_true
  · rintro ⟨hstart, path, hpath, hplain, hlast, hname⟩
    have hsome : name.toList.isEmpty = false := by
      simpa using hname
    simp [hstart, hpath, hplain, hlast, hsome]

/-- The contents of a group do not count for the name, but the group itself may, as the start of a
type of functions without a name. -/
theorem ofTypeName?_group {args args' : List Char} {hidden hidden' : List Char}
    (hargs : Outside (marks none args) hidden) (hargs' : Outside (marks none args') hidden')
    (hlast : args.getLast? ≠ some '-') (hlast' : args'.getLast? ≠ some '-')
    (before rest : List Char) :
    ofTypeName? (String.ofList (before ++ '<' :: (args ++ '>' :: rest)))
      = ofTypeName? (String.ofList (before ++ '<' :: (args' ++ '>' :: rest))) := by
  have hstarts : ∀ inner, (pointerStarts.any fun start =>
      start.toList.isPrefixOf (before ++ '<' :: inner))
      = pointerStarts.any fun start => start.toList.isPrefixOf (before ++ ['<']) := by
    intro inner
    have hbracket : ∀ start ∈ pointerStarts, '<' ∉ start.toList.dropLast := by decide
    rw [Bool.eq_iff_iff, List.any_eq_true, List.any_eq_true]
    refine exists_congr fun start => and_congr_right fun hstart => ?_
    rw [List.isPrefixOf_iff_prefix, List.isPrefixOf_iff_prefix,
      prefix_append_bracket_iff (hbracket start hstart)]
  simp only [ofTypeName?, String.toList_ofList, hstarts, stripGroups_group hargs hlast,
    stripGroups_group hargs' hlast']

theorem stripGroups_eq_self {cs : List Char} (h : ∀ c ∈ cs, c ≠ '<' ∧ c ≠ '>')
    (previous : Option Char) : stripGroups 0 previous cs = some cs := by
  induction cs generalizing previous with
  | nil => rfl
  | cons c cs ih =>
    obtain ⟨⟨hopen, hclose⟩, hcs⟩ := List.forall_mem_cons.1 h
    rw [stripGroups, if_neg hopen, if_neg hclose, ih hcs, Option.map_some]

/-- **Generic arguments do not count for the name of a callback.** Names are read off what is
outside of angle brackets, which have to match. -/
theorem name_ignores_generic_arguments :
    (∀ typeName name, ofTypeName typeName = .ok name ↔
      (∀ start ∈ ["fn(", "for<", "unsafe ", "extern "], ¬ start.toList <+: typeName.toList)
      ∧ ∃ path, Outside (marks none typeName.toList) path
        ∧ (∀ c ∈ path, c ∉ ['\x7b', '(', ' ', '&'])
        ∧ IsLastSegment path name.toList ∧ name ≠ "")
    ∧ (∀ typeName e, ofTypeName typeName = .error e → e = .notAFunction typeName)
    ∧ (∀ u w a b : String, IsBalanced a → IsBalanced b → a.toList.getLast? ≠ some '-' →
      b.toList.getLast? ≠ some '-' →
        (ofTypeName (u ++ "<" ++ a ++ ">" ++ w)).toOption
          = (ofTypeName (u ++ "<" ++ b ++ ">" ++ w)).toOption)
    ∧ ∀ cs path, stripGroups 0 none cs = some path →
      '<' ∉ path ∧ '>' ∉ path ∧ stripGroups 0 none path = some path := by
  refine ⟨fun typeName name => ofTypeName_eq_ok_iff.trans ofTypeName?_eq_some_iff,
    fun typeName e h => ?_, fun u w a b ha hb hlast hlast' => ?_, fun cs path h => ?_⟩
  · rw [ofTypeName] at h
    split at h <;> cases h
    rfl
  · obtain ⟨hidden, ha⟩ := ha
    obtain ⟨hidden', hb⟩ := hb
    have htoOption : ∀ typeName, (ofTypeName typeName).toOption = ofTypeName? typeName := by
      intro typeName
      rw [ofTypeName]
      cases ofTypeName? typeName <;> rfl
    have hchars : ∀ args : String, u ++ "<" ++ args ++ ">" ++ w
        = String.ofList (u.toList ++ '<' :: (args.toList ++ '>' :: w.toList)) := by
      intro args
      rw [← String.toList_inj]
      simp
    rw [htoOption, htoOption, hchars, hchars]
    exact ofTypeName?_group ha hb hlast hlast' u.toList w.toList
  · have hplain := noBrackets_of_stripGroups h
    exact ⟨fun hmem => (hplain _ hmem).1 rfl, fun hmem => (hplain _ hmem).2 rfl,
      stripGroups_eq_self hplain none⟩

/-- An arrow among the arguments does not end them. -/
theorem name_ignores_generic_arguments_arrow :
    (ofTypeName ("jobs::Jobs" ++ "<" ++ "u8" ++ ">" ++ "::run")).toOption = some "run"
      ∧ (ofTypeName ("jobs::Jobs" ++ "<" ++ "fn() -> Vec<u8>" ++ ">" ++ "::run")).toOption
        = some "run" := by
  have hplain : IsBalanced "u8" := ⟨"u8".toList, stripGroups_eq_some_iff.1 (by decide +kernel)⟩
  have harrow : IsBalanced "fn() -> Vec<u8>" :=
    ⟨"fn() - Vec".toList, stripGroups_eq_some_iff.1 (by decide +kernel)⟩
  have hname : (ofTypeName ("jobs::Jobs" ++ "<" ++ "u8" ++ ">" ++ "::run")).toOption
      = some "run" := by
    decide +kernel
  have hsame := name_ignores_generic_arguments.2.2.1 "jobs::Jobs" "::run" _ _ hplain harrow
    (by decide) (by decide)
  exact ⟨hname, hsame ▸ hname⟩

end ActionRegistry.CallbackName
