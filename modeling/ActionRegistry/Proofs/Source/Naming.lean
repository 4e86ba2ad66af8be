import ActionRegistry.Proofs.Registration.Commit
import ActionRegistry.Proofs.Source.Catalog

/-!
# Which source failed

Loading fails with the first source that does not add to what those before it loaded, and the event
of the failure names that source. The error names it only if the source is a text that does not
read: any other check is made where the name of the source is not known, so the error is the same
under every name.
-/

namespace ActionRegistry

/-- An error tells a name if the name is part of its wording. -/
def Error.Tells (e : Error) (name : String) : Prop :=
  ∃ before after, e.message = before ++ name ++ after

theorem Error.Tells.length_le {e : Error} {name : String} (h : e.Tells name) :
    name.length ≤ e.message.length := by
  obtain ⟨before, after, h⟩ := h
  rw [h, String.length_append, String.length_append]
  omega

theorem Error.Tells.mem {e : Error} {name : String} (h : e.Tells name) {c : Char}
    (hc : c ∈ name.toList) : c ∈ e.message.toList := by
  obtain ⟨before, after, h⟩ := h
  simp [h, hc]

/-- No error tells every name. -/
theorem Error.exists_not_tells (e : Error) : ∃ name, ¬ e.Tells name := by
  refine ⟨String.ofList (List.replicate (e.message.length + 1) 'a'), fun h => ?_⟩
  have hlength := h.length_le
  rw [String.length_ofList, List.length_replicate] at hlength
  exact Nat.not_succ_le_self _ hlength

namespace Source

/-- The source under another name. -/
def called (name : String) : Source → Source
  | plugin _ register => plugin name register
  | declarative _ text => declarative name text

theorem called_name (s : Source) : s.called s.name = s := by
  cases s <;> rfl

/-- A text that declares nothing: it is not YAML, or has not two documents, or the first is no
description or the second is no JSON value. -/
def IsUnreadable : Source → Prop
  | plugin _ _ => False
  | declarative _ text => ∃ fault, Declarative.ofText text = .error fault

variable {s : Source} {r r' : Registry} {e : Error}

/-! ### One source -/

theorem addTo_declarative (name text : String) (r : Registry) :
    (declarative name text).addTo r = Declarative.outcome r name text :=
  InPlace.result_of_whole (Declarative.run_register r name text)

theorem addTo_of_isUnreadable (h : s.IsUnreadable) : ∃ fault, ∀ name r,
    (s.called name).addTo r = .error (.malformedSource name fault) := by
  cases s with
  | plugin _ _ => exact h.elim
  | declarative _ text =>
    obtain ⟨fault, hfault⟩ := h
    refine ⟨fault, fun name r => ?_⟩
    rw [called, addTo_declarative, Declarative.outcome, hfault, Result.mapError_error,
      Result.error_bind]

/-- The name of a source counts only if the source is a text that does not read. -/
theorem addTo_called (h : ¬ s.IsUnreadable) (name : String) (r : Registry) :
    (s.called name).addTo r = s.addTo r := by
  cases s with
  | plugin _ _ => rfl
  | declarative own text =>
    cases hread : Declarative.ofText text with
    | error fault => exact absurd ⟨fault, hread⟩ h
    | ok declared =>
      rw [called, addTo_declarative, addTo_declarative]
      simp [Declarative.outcome, hread]

theorem tells_malformedSource (name : String) (fault : SourceFault) :
    (Error.malformedSource name fault).Tells name := by
  refine ⟨"malformed action source " ++ "'", "'" ++ ": " ++ fault.message, ?_⟩
  have hmessage : (Error.malformedSource name fault).message
      = "malformed action source " ++ apostrophed name ++ ": " ++ fault.message := rfl
  rw [hmessage, apostrophed]
  simp only [String.append_assoc]

/-! ### Many sources -/

theorem addAll_append {before after : List Source} (h : (addAll before r).1 = .ok r') :
    addAll (before ++ after) r = addAll after r' := by
  induction before generalizing r with
  | nil =>
    cases h
    rfl
  | cons s rest ih =>
    cases hs : s.addTo r with
    | error e => simp [addAll, hs] at h
    | ok mid =>
      simp only [addAll, hs] at h
      simpa only [List.cons_append, addAll, hs] using ih h

theorem load_of_failure {before after : List Source} (hbefore : (load before).1 = .ok r)
    (hs : s.addTo r = .error e) :
    load (before ++ s :: after) = (.error e, [s.failedEvent e]) := by
  rw [load, addAll_append hbefore, addAll, hs]

theorem result_read_of_failure {before after : List Source} (hbefore : (load before).1 = .ok r)
    (hs : s.addTo r = .error e) :
    (Catalog.ofSources (before ++ s :: after)).read.result = .error e := by
  rw [Catalog.read_of_not_loaded rfl, Catalog.ofSources, load_of_failure hbefore hs]

theorem result_read_of_first {after : List Source} (hs : s.addTo .empty = .error e) :
    (Catalog.ofSources (s :: after)).read.result = .error e := by
  rw [← List.nil_append (s :: after)]
  exact result_read_of_failure rfl hs

theorem exists_failure {sources : List Source} (h : (addAll sources r).1 = .error e) :
    ∃ before s after r', sources = before ++ s :: after ∧ (addAll before r).1 = .ok r'
      ∧ s.addTo r' = .error e := by
  induction sources generalizing r with
  | nil => cases h
  | cons s rest ih =>
    cases hs : s.addTo r with
    | error e' =>
      simp only [addAll, hs, Except.error.injEq] at h
      exact ⟨[], s, rest, r, rfl, rfl, h ▸ hs⟩
    | ok mid =>
      simp only [addAll, hs] at h
      obtain ⟨before, t, after, r', rfl, hbefore, ht⟩ := ih h
      exact ⟨s :: before, t, after, r', rfl, by simpa only [addAll, hs] using hbefore, ht⟩

end Source

open Source in
/-- **Which failures name their source.** The event has the name; the error tells it just if the
source is a text that does not read. -/
theorem unreadable_source_is_told {c : Catalog} {e : Error} (h : c.read.result = .error e) :
    ∃ before s after r, c.sources = before ++ s :: after ∧ (load before).1 = .ok r
      ∧ s.addTo r = .error e ∧ c.read.log = [s.failedEvent e]
      ∧ (s.IsUnreadable → e.Tells s.name)
      ∧ (s.IsUnreadable ↔ ∀ name, ∃ e',
          (Catalog.ofSources (before ++ s.called name :: after)).read.result = .error e'
          ∧ e'.Tells name)
      ∧ (¬ s.IsUnreadable → ∀ name,
          (Catalog.ofSources (before ++ s.called name :: after)).read.result = .error e) := by
  obtain ⟨sources, loaded⟩ := c
  cases loaded with
  | some registry => cases h
  | none =>
    rw [Catalog.read_of_not_loaded rfl] at h
    obtain ⟨before, s, after, r, rfl, hbefore, hs⟩ := exists_failure h
    have hnamed : ∀ name e', (s.called name).addTo r = .error e' →
        (Catalog.ofSources (before ++ s.called name :: after)).read.result = .error e' :=
      fun _ _ => result_read_of_failure hbefore
    refine ⟨before, s, after, r, rfl, hbefore, hs, ?_, fun hread => ?_, ⟨fun hread name => ?_, ?_⟩,
      fun hread name => hnamed name e ((addTo_called hread name r).trans hs)⟩
    · rw [Catalog.read_of_not_loaded rfl, load_of_failure hbefore hs]
    · obtain ⟨fault, hfault⟩ := addTo_of_isUnreadable hread
      have he := hfault s.name r
      rw [called_name, hs] at he
      cases he
      exact tells_malformedSource s.name fault
    · obtain ⟨fault, hfault⟩ := addTo_of_isUnreadable hread
      exact ⟨_, hnamed name _ (hfault name r), tells_malformedSource name fault⟩
    · intro htold
      -- Otherwise one error is given under every name, and so it does not tell all of them.
      by_contra hread
      obtain ⟨name, hname⟩ := e.exists_not_tells
      obtain ⟨e', he', htells⟩ := htold name
      cases he'.symm.trans (hnamed name e ((addTo_called hread name r).trans hs))
      exact hname htells

theorem open_bracket_is_told :
    let broken := Source.declarative "open.yml" "x: ["
    ∃ e, (Catalog.ofSources [broken]).read.result = .error e ∧ e.Tells "open.yml" := by
  intro broken
  have hnone : (Declarative.ofText "x: [").toOption.isNone := by decide +kernel
  have hunreadable : broken.IsUnreadable := by
    change ∃ fault, Declarative.ofText "x: [" = .error fault
    cases hread : Declarative.ofText "x: [" with
    | error fault => exact ⟨fault, rfl⟩
    | ok declared =>
      rw [hread] at hnone
      cases hnone
  obtain ⟨fault, hadd⟩ := Source.addTo_of_isUnreadable hunreadable
  have hread : (Catalog.ofSources [broken]).read.result = _ :=
    Source.result_read_of_first (hadd "open.yml" .empty)
  obtain ⟨before, s, after, r, hsources, _, _, _, htold, _⟩ := unreadable_source_is_told hread
  have hs : s = broken := by
    cases before with
    | nil => exact (List.cons.inj hsources).1.symm
    | cons other before => simp [Catalog.ofSources] at hsources
  subst hs
  exact ⟨_, hread, htold hunreadable⟩

/-- A text whose first document has a blank title is not told by its name. -/
theorem blank_title_is_not_told :
    let broken := Source.declarative "broken.yml"
      "name: n\ntitle: \" \"\ndescription: d\norder: 1\n---\n\x7b\x7d\n"
    ∃ e, (Catalog.ofSources [broken]).read.result = .error e ∧ broken.addTo .empty = .error e
      ∧ ¬ e.Tells broken.name := by
  intro broken
  have hmessage : (Except.tryCatch ((fun _ => none) <$> broken.addTo .empty)
      fun e => .ok (some e.message)).toOption
        = some (some "invalid title: must be a non-empty string") := by
    decide +kernel
  cases hadd : broken.addTo .empty with
  | ok r =>
    rw [hadd] at hmessage
    cases hmessage
  | error e =>
    rw [hadd] at hmessage
    have hwording : e.message = "invalid title: must be a non-empty string" :=
      Option.some.inj (Option.some.inj hmessage)
    refine ⟨e, Source.result_read_of_first hadd, rfl, fun htells => ?_⟩
    -- The name has a letter that is nowhere in the wording.
    have hk : 'k' ∈ e.message.toList := htells.mem (by decide)
    rw [hwording] at hk
    exact absurd hk (by decide)

end ActionRegistry
