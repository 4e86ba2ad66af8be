import ActionRegistry.Proofs.Text.Pattern
import ActionRegistry.Task.Repository

/-!
# What the scope of a repository stands for

Addresses of repositories are the matches of one pattern. Its second group takes as few characters
as it can, so it ends before a slash at the end of the address, but before one slash only: the
pattern has one optional slash to take it. That leaves a path from which the scope is made, and the
scope tells the path.
-/

namespace ActionRegistry.Repository

open Text (Pattern)
open Text.Pattern

/-- The addresses of repositories, with the site and the path as groups. -/
def addressPattern : Pattern :=
  .seq .start <| .seq (.literal "https://") <| .seq (.group (.literal "hg.mozilla.org")) <|
    .seq (.literal "/") <| .seq (.group (.few (· != '\n'))) <| .seq (.optional '/') .finish

/-- The path that is left of the rest of an address by a slash at its end. -/
def IsPath (rest path : String) : Prop :=
  rest = path ++ "/" ∨ rest = path ∧ rest.toList.getLast? ≠ some '/'

/-! ### The start of an address -/

theorem dropStart?_eq_some_iff {start cs rest : List Char} :
    dropStart? start cs = some rest ↔ cs = start ++ rest := by
  induction start generalizing cs with
  | nil => simp [dropStart?]
  | cons a start ih =>
    cases cs with
    | nil => simp [dropStart?]
    | cons b cs =>
      rw [dropStart?, List.cons_append, List.cons.injEq]
      by_cases hab : a = b
      · rw [if_pos hab, ih]
        exact ⟨fun h => ⟨hab.symm, h⟩, And.right⟩
      · rw [if_neg hab]
        exact ⟨nofun, fun h => absurd h.1.symm hab⟩

theorem dropStart?_append (start start' cs : List Char) :
    dropStart? (start ++ start') cs = (dropStart? start cs).bind (dropStart? start') := by
  ext rest
  simp only [Option.bind_eq_some_iff, dropStart?_eq_some_iff]
  constructor
  · rintro rfl
    exact ⟨start' ++ rest, List.append_assoc .., rfl⟩
  · rintro ⟨middle, rfl, rfl⟩
    exact (List.append_assoc ..).symm

theorem dropStart?_eq_ite (start cs : List Char) :
    dropStart? start cs = if start.isPrefixOf cs then some (cs.drop start.length) else none := by
  ext rest
  rw [dropStart?_eq_some_iff]
  by_cases h : start <+: cs
  · obtain ⟨rest', rfl⟩ := h
    rw [if_pos (List.isPrefixOf_iff_prefix.2 (List.prefix_append start rest')), List.drop_left,
      Option.some.injEq, List.append_cancel_left_eq]
  · have hnone : ¬ cs = start ++ rest := fun heq => h (heq ▸ List.prefix_append start rest)
    simp [hnone, h]

/-! ### The end of an address -/

theorem dropFinalSlash_cons {c : Char} {cs : List Char} (h : c :: cs ≠ ['/']) :
    dropFinalSlash (c :: cs) = c :: dropFinalSlash cs := by
  cases cs with
  | nil =>
    have hc : c ≠ '/' := fun hc => h (by rw [hc])
    simp [dropFinalSlash, hc]
  | cons d cs =>
    rw [dropFinalSlash, dropFinalSlash, List.getLast?_cons_cons, List.dropLast_cons_cons]
    split <;> rfl

theorem isPath_iff {rest path : String} :
    IsPath rest path ↔ path.toList = dropFinalSlash rest.toList := by
  rw [IsPath, dropFinalSlash]
  by_cases hlast : rest.toList.getLast? = some '/'
  · obtain ⟨cs, hcs⟩ := List.getLast?_eq_some_iff.1 hlast
    have hslash : rest = path ++ "/" ↔ path.toList = cs := by
      rw [← String.toList_inj, String.toList_append, hcs]
      exact (List.append_left_inj ['/']).trans eq_comm
    simp [hslash, hcs]
  · have hslash : rest ≠ path ++ "/" := by
      rintro rfl
      simp at hlast
    simp [hlast, hslash, ← String.toList_inj, eq_comm]

/-- An optional slash and the end are matched by what is nothing but a slash, if anything. -/
theorem ways_finish (atStart : Bool) (cs : List Char) :
    (Pattern.seq (.optional '/') .finish).ways atStart cs
      = if cs = ['/'] ∨ cs = [] then [⟨cs, [], []⟩] else [] := by
  match cs with
  | [] => rfl
  | [c] =>
    by_cases hc : '/' = c
    · rw [← hc]
      rfl
    · simp [ways, hc, Ne.symm hc]
  | c :: d :: cs => by_cases hc : '/' = c <;> simp [ways, hc]

/-- What a run that is followed by one slash or none gives, if nothing else follows. -/
def ending? (w : Way) : Option (List (List Char)) :=
  if w.rest = ['/'] ∨ w.rest = [] then some (w.taken :: w.groups) else none

theorem findSome?_ending (cs : List Char) : (fewWays (· != '\n') cs).findSome? ending?
    = if '\n' ∈ cs then none else some [dropFinalSlash cs] := by
  induction cs with
  | nil => rfl
  | cons c cs ih =>
    by_cases hslash : c :: cs = ['/']
    · rw [hslash]
      rfl
    · have hfirst : ending? ⟨[], c :: cs, []⟩ = none := by simp [ending?, hslash]
      rw [fewWays, List.findSome?_cons, hfirst, dropFinalSlash_cons hslash]
      by_cases hc : c = '\n'
      · simp [hc]
      · -- A longer run ends as the run behind its first character does.
        have hlonger : (ending? ∘ fun w => { w with taken := c :: w.taken })
            = Option.map (List.modifyHead (c :: ·)) ∘ ending? := by
          funext w
          by_cases hw : w.rest = ['/'] ∨ w.rest = [] <;> simp [ending?, hw]
        have hmem : '\n' ∈ c :: cs ↔ '\n' ∈ cs := by simp [Ne.symm hc]
        simp only [bne_iff_ne.2 hc, if_true, List.findSome?_map, hlonger]
        rw [← List.map_findSome?, ih]
        simp only [hmem]
        split <;> rfl

theorem first?_path (atStart : Bool) (cs : List Char) :
    (Pattern.seq (.group (.few (· != '\n'))) (.seq (.optional '/') .finish)).first? atStart cs
      = if '\n' ∈ cs then none else some [dropFinalSlash cs] := by
  rw [first?, ways, List.head?_flatMap, ways, List.findSome?_map, List.map_findSome?, ways,
    ← findSome?_ending]
  congr 1
  funext w
  by_cases hw : w.rest = ['/'] ∨ w.rest = [] <;> simp [ending?, ways_finish, hw]

/-! ### Addresses and scopes -/

theorem search?_address (cs : List Char) : addressPattern.search? true cs
    = (dropStart? host.toList cs).bind fun rest =>
      if '\n' ∈ rest then none else some ["hg.mozilla.org".toList, dropFinalSlash rest] := by
  have hhost : host.toList = "https://".toList ++ ("hg.mozilla.org".toList ++ "/".toList) := by
    decide +kernel
  rw [addressPattern, search?_start, hhost, dropStart?_append, Option.bind_assoc, dropStart?_eq_ite,
    first?_literal]
  split
  · rw [Option.bind_some, dropStart?_append, Option.bind_assoc, dropStart?_eq_ite,
      first?_group_literal]
    split
    · rw [Option.bind_some, dropStart?_eq_ite, first?_literal]
      split
      · rw [Option.bind_some, first?_path]
        split <;> rfl
      · rfl
    · rfl
  · rfl

theorem groups?_addressPattern (url : String) :
    addressPattern.groups? url = (path? url).map fun path => ["hg.mozilla.org", path] := by
  rw [groups?, search?_address, path?]
  cases dropStart? host.toList url.toList with
  | none => rfl
  | some rest =>
    simp only [Option.bind_some, List.contains_iff_mem]
    by_cases hfeed : '\n' ∈ rest
    · rw [if_pos hfeed, if_pos hfeed]
      rfl
    · rw [if_neg hfeed, if_neg hfeed, Option.map_some, Option.map_some, List.map_cons,
        String.ofList_toList]
      rfl

theorem path?_append_host (rest : String) : path? (host ++ rest)
    = if '\n' ∈ rest.toList then none else some (String.ofList (dropFinalSlash rest.toList)) := by
  have hdrop : dropStart? host.toList (host ++ rest).toList = some rest.toList :=
    dropStart?_eq_some_iff.2 String.toList_append
  simp only [path?, hdrop, List.contains_iff_mem]

theorem path?_eq_some_iff {url path : String} : path? url = some path ↔
    ∃ rest, url = host ++ rest ∧ '\n' ∉ rest.toList ∧ IsPath rest path := by
  constructor
  · intro h
    cases hdrop : dropStart? host.toList url.toList with
    | none =>
      rw [path?, hdrop] at h
      cases h
    | some cs =>
      have hurl : url = host ++ String.ofList cs := by
        rw [← String.toList_inj, String.toList_append, String.toList_ofList]
        exact dropStart?_eq_some_iff.1 hdrop
      rw [hurl, path?_append_host] at h
      split at h
      · cases h
      · next hfeed => exact ⟨_, hurl, hfeed, isPath_iff.2 (by simp [← Option.some.inj h])⟩
  · rintro ⟨rest, rfl, hfeed, hpath⟩
    rw [path?_append_host, if_neg hfeed, ← isPath_iff.1 hpath, String.ofList_toList]

theorem path?_eq_none_iff {url : String} : path? url = none ↔
    ¬ ∃ rest, url = host ++ rest ∧ '\n' ∉ rest.toList := by
  rw [Option.eq_none_iff_forall_ne_some, not_exists]
  constructor
  · rintro h rest ⟨rfl, hfeed⟩
    exact h _ (by rw [path?_append_host, if_neg hfeed])
  · intro h path hpath
    obtain ⟨rest, hurl, hfeed, _⟩ := path?_eq_some_iff.1 hpath
    exact h rest ⟨hurl, hfeed⟩

/-- **A scope stands for one repository.** It is made from the two groups of the address, and names
the path in it. -/
theorem scope_names_one_repository :
    (∀ url, scope url = match addressPattern.groups? url with
      | some [site, path] => .ok ("assume:repo:" ++ site ++ "/" ++ path ++ ":*")
      | _ => .error (.unrecognizedRepository url))
    ∧ (∀ url s, scope url = .ok s ↔ ∃ rest path, url = host ++ rest ∧ '\n' ∉ rest.toList
      ∧ IsPath rest path ∧ s = "assume:repo:hg.mozilla.org/" ++ path ++ ":*")
    ∧ (∀ url e, scope url = .error e ↔ (¬ ∃ rest, url = host ++ rest ∧ '\n' ∉ rest.toList)
      ∧ e = .unrecognizedRepository url)
    ∧ ∀ rest rest' path path', '\n' ∉ rest.toList → '\n' ∉ rest'.toList → IsPath rest path →
      IsPath rest' path' → (scope (host ++ rest) = scope (host ++ rest') ↔ path = path') := by
  refine ⟨fun url => ?_, fun url s => ?_, fun url e => ?_,
    fun rest rest' path path' hfeed hfeed' hpath hpath' => ?_⟩
  · rw [scope, groups?_addressPattern]
    cases path? url with
    | none => rfl
    | some path => rfl
  · rw [scope]
    constructor
    · intro h
      split at h
      · next path hpath =>
        obtain ⟨rest, hrest⟩ := path?_eq_some_iff.1 hpath
        exact ⟨rest, path, hrest.1, hrest.2.1, hrest.2.2, (Except.ok.inj h).symm⟩
      · cases h
    · rintro ⟨rest, path, hurl, hfeed, hpath, rfl⟩
      rw [path?_eq_some_iff.2 ⟨rest, hurl, hfeed, hpath⟩]
  · rw [← path?_eq_none_iff, scope]
    cases path? url <;> simp [eq_comm]
  · rw [scope, scope, path?_eq_some_iff.2 ⟨rest, rfl, hfeed, hpath⟩,
      path?_eq_some_iff.2 ⟨rest', rfl, hfeed', hpath'⟩, Except.ok.injEq, String.append_left_inj,
      String.append_right_inj]

/-- One slash at the end does not count, but a second one does. -/
theorem scope_names_one_repository_try :
    scope (host ++ "try") = scope (host ++ "try/")
      ∧ scope (host ++ "try") ≠ scope (host ++ "try//") := by
  have hsame := scope_names_one_repository.2.2.2
  have hone : IsPath "try/" "try" := .inl rfl
  have htwo : IsPath "try//" "try/" := .inl rfl
  have hnone : IsPath "try" "try" := .inr ⟨rfl, by decide⟩
  constructor
  · exact (hsame _ _ _ _ (by decide) (by decide) hnone hone).2 rfl
  · exact mt (hsame _ _ _ _ (by decide) (by decide) hnone htwo).1 (by decide)

end ActionRegistry.Repository
