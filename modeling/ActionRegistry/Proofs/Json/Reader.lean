import Mathlib.Data.List.Induction
import Mathlib.Data.List.TakeWhile
import ActionRegistry.Json.Reader
import ActionRegistry.Proofs.Text.Trim

/-!
# The text of a null

A trimmed text reads as a null only if it is the word. A reader completes a value that is no array
and no object with its first token or never: a first token that opens something leaves it open until
an array or an object is complete. So the text has one token, and there is nothing around it, since
what may stand around tokens is blank.
-/

namespace ActionRegistry.Json

namespace Reader

/-- Something is open or complete, and what is complete is no null. -/
structure IsPastNull (r : Reader) : Prop where
  complete : r.frames = [] → ∃ v, r.phase = .complete v
  value : r.phase ≠ .complete .null

variable {r r' : Reader} {frames : List Frame} {token : Token}

theorem isPastNull_put {v : Json} (h : put frames v = some r') (hv : frames ≠ [] ∨ v ≠ .null) :
    r'.IsPastNull := by
  cases frames with
  | nil =>
    cases h
    refine ⟨fun _ => ⟨v, rfl⟩, fun heq => ?_⟩
    exact hv.resolve_left (fun hne => hne rfl) (Phase.complete.inj heq)
  | cons frame outer =>
    cases frame <;> cases h <;> exact ⟨nofun, nofun⟩

theorem isPastNull_close (h : close frames token = some r') : r'.IsPastNull := by
  unfold close at h
  split at h
  · exact isPastNull_put h (.inr nofun)
  · exact isPastNull_put h (.inr nofun)
  · cases h

theorem isPastNull_openFrame {frame : Frame} {phase : Phase} (hphase : phase ≠ .complete .null)
    (h : openFrame frames frame phase = some r') : r'.IsPastNull := by
  unfold openFrame at h
  split at h
  · cases h
    exact ⟨nofun, hphase⟩
  · cases h

theorem isPastNull_startValue (h : startValue frames token = some r')
    (htoken : frames ≠ [] ∨ token ≠ .scalar .null) : r'.IsPastNull := by
  cases token with
  | scalar v => exact isPastNull_put h (htoken.imp_right fun hne heq => hne (heq ▸ rfl))
  | openArray => exact isPastNull_openFrame (show Phase.firstItem ≠ _ from nofun) h
  | openObject => exact isPastNull_openFrame (show Phase.firstName ≠ _ from nofun) h
  | _ => cases h

theorem isPastNull_startField (h : startField frames token = some r') : r'.IsPastNull := by
  unfold startField at h
  split at h
  · split at h
    · cases h
      exact ⟨nofun, nofun⟩
    · cases h
  · cases h

theorem not_complete_of_step (h : r.step token = some r') (v : Json) : r.phase ≠ .complete v := by
  intro hphase
  simp [Reader.step, hphase] at h

/-- A token starts a value, ends an array or an object, names a field, or changes nothing but what
may come next. -/
theorem step_cases (h : r.step token = some r') :
    startValue r.frames token = some r' ∨ close r.frames token = some r'
    ∨ startField r.frames token = some r'
    ∨ r'.frames = r.frames ∧ ∀ v, r'.phase ≠ .complete v := by
  unfold Reader.step at h
  split at h
  · exact .inl h
  · exact .inr (.inl h)
  · exact .inl h
  · exact .inr (.inl h)
  · exact .inr (.inr (.inl h))
  · exact .inr (.inr (.inl h))
  · cases h
    exact .inr (.inr (.inr ⟨rfl, nofun⟩))
  · cases h
  · split at h <;> cases h <;> exact .inr (.inr (.inr ⟨rfl, nofun⟩))
  · exact .inr (.inl h)
  · cases h

/-- No token leads back to a null. -/
theorem IsPastNull.step (hr : r.IsPastNull) (h : r.step token = some r') : r'.IsPastNull := by
  have hopen : r.frames ≠ [] := fun hnil =>
    (hr.complete hnil).elim (not_complete_of_step h)
  rcases step_cases h with h | h | h | ⟨hframes, hphase⟩
  · exact isPastNull_startValue h (.inl hopen)
  · exact isPastNull_close h
  · exact isPastNull_startField h
  · exact ⟨fun hnil => absurd (hframes.symm.trans hnil) hopen, hphase .null⟩

theorem IsPastNull.foldlM (hr : r.IsPastNull) {tokens : List Token}
    (h : tokens.foldlM Reader.step r = some r') : r'.IsPastNull := by
  induction tokens generalizing r with
  | nil =>
    cases h
    exact hr
  | cons token rest ih =>
    rw [List.foldlM_cons, Option.bind_eq_bind, Option.bind_eq_some_iff] at h
    obtain ⟨next, hnext, hrest⟩ := h
    exact ih (hr.step hnext) hrest

theorem tokens_of_null {tokens : List Token} (h : tokens.foldlM Reader.step start = some r)
    (hr : r.phase = .complete .null) : tokens = [.scalar .null] := by
  cases tokens with
  | nil =>
    cases h
    cases hr
  | cons token rest =>
    rw [List.foldlM_cons, Option.bind_eq_bind, Option.bind_eq_some_iff] at h
    obtain ⟨first, hfirst, hrest⟩ := h
    by_cases htoken : token = .scalar .null
    -- The null is complete with its token, and nothing may follow.
    · subst htoken
      cases hfirst
      cases rest with
      | nil => rfl
      | cons next rest => cases hrest
    · have hstart : startValue [] token = some first := hfirst
      have hpast := isPastNull_startValue hstart (.inr htoken)
      exact absurd hr (hpast.foldlM hrest).value

end Reader

namespace Token

theorem isBlank_of_isSpace {c : Char} (h : isSpace c) : Text.isBlank c := by
  simp only [isSpace, Bool.or_eq_true, beq_iff_eq] at h
  rcases h with ((rfl | rfl) | rfl) | rfl <;> decide

theorem next?_null {cs rest : List Char} (h : next? cs = some (.scalar .null, rest)) :
    cs = ['n', 'u', 'l', 'l'] ++ rest := by
  unfold next? at h
  split at h
  -- The word itself comes first, then texts and numbers, whose tokens are no nulls.
  case h_7 => cases h; rfl
  case h_10 => simp at h
  case h_11 => simp at h
  all_goals cases h

theorem all_isSpace_of_scan {fuel : Nat} {cs : List Char} (h : scan fuel cs = some []) :
    ∀ c ∈ cs, isSpace c := by
  cases fuel with
  | zero =>
    rw [scan] at h
    split at h
    · rwa [← List.all_eq_true]
    · cases h
  | succ fuel =>
    rw [scan] at h
    split at h
    · rwa [← List.dropWhile_eq_nil_iff]
    · split at h
      · cases h
      · simp at h

/-- One null is the word between spaces. -/
theorem null_of_scan {fuel : Nat} {cs : List Char} (h : scan fuel cs = some [.scalar .null]) :
    ∃ before after, cs = before ++ ['n', 'u', 'l', 'l'] ++ after
      ∧ (∀ c ∈ before, isSpace c) ∧ ∀ c ∈ after, isSpace c := by
  cases fuel with
  | zero =>
    rw [scan] at h
    split at h <;> cases h
  | succ fuel =>
    rw [scan] at h
    split at h
    · cases h
    · split at h
      · cases h
      · next token rest hnext =>
        rw [Option.map_eq_some_iff] at h
        obtain ⟨tokens, hrest, htokens⟩ := h
        obtain ⟨rfl, rfl⟩ := List.cons.inj htokens
        refine ⟨cs.takeWhile isSpace, rest, ?_, ?_, all_isSpace_of_scan hrest⟩
        · rw [List.append_assoc, ← next?_null hnext, List.takeWhile_append_dropWhile]
        · exact fun c hc => List.mem_takeWhile_imp hc

end Token

/-- A trimmed text reads as a null just if it is the word. -/
theorem read?_eq_null_iff {s : String} (hs : Text.IsTrimmed s) :
    read? s = some .null ↔ s = "null" := by
  constructor
  · intro h
    simp only [read?, Option.bind_eq_bind, Option.bind_eq_some_iff] at h
    obtain ⟨tokens, htokens, last, hlast, hvalue⟩ := h
    have hphase : last.phase = .complete .null := by
      split at hvalue
      · next heq => rw [heq, Option.some.inj hvalue]
      · cases hvalue
    rw [Reader.tokens_of_null hlast hphase] at htokens
    obtain ⟨before, after, hchars, hbefore, hafter⟩ := Token.null_of_scan htokens
    have hblank : ∀ {c}, Text.isBlank c = false → ¬ Token.isSpace c := by
      intro c hc hspace
      simp [Token.isBlank_of_isSpace hspace] at hc
    have hfirst : before = [] := by
      cases before with
      | nil => rfl
      | cons c rest =>
        exact absurd (hbefore c List.mem_cons_self) (hblank (hs.first c (by simp [hchars])))
    have hlast : after = [] := by
      cases after using List.reverseRecOn with
      | nil => rfl
      | append_singleton rest c =>
        have hc : c ∈ s.toList.getLast? := by
          rw [hchars, ← List.append_assoc, List.getLast?_concat]
          rfl
        exact absurd (hafter c (by simp)) (hblank (hs.last c hc))
    rw [hfirst, hlast] at hchars
    exact String.toList_inj.1 hchars
  · rintro rfl
    rfl

end ActionRegistry.Json
