import Mathlib.Data.List.TakeWhile
import ActionRegistry.Text

/-!
# Trimmed texts

Trimming leaves a text without blank characters at its ends, and leaves alone a text that has none.
The two ends are cut one after the other, so the first end has to survive the second cut: what is
left by it is a prefix of what it is given.
-/

namespace ActionRegistry.Text

/-- A text that is not empty and has no blank character at either end. -/
structure IsTrimmed (s : String) : Prop where
  nonempty : s ≠ ""
  first : ∀ c ∈ s.toList.head?, isBlank c = false
  last : ∀ c ∈ s.toList.getLast?, isBlank c = false

private theorem isBlank_of_head?_dropWhile {cs : List Char} {c : Char}
    (h : c ∈ (cs.dropWhile isBlank).head?) : isBlank c = false := by
  have hhead := List.head?_dropWhile_not isBlank cs
  rw [Option.mem_def] at h
  rw [h] at hhead
  exact hhead

private theorem isPrefix_dropTrailingBlanks (cs : List Char) : dropTrailingBlanks cs <+: cs := by
  have h := List.dropWhile_suffix (l := cs.reverse) isBlank
  rw [← List.reverse_prefix, List.reverse_reverse] at h
  exact h

private theorem mem_head?_of_append {l₁ l₂ : List Char} (h : l₁ <+: l₂) {c : Char}
    (hc : c ∈ l₁.head?) : c ∈ l₂.head? := by
  obtain ⟨rest, rfl⟩ := h
  cases l₁ with
  | nil => simp at hc
  | cons _ _ => exact hc

theorem head?_trimChars {cs : List Char} {c : Char} (h : c ∈ (trimChars cs).head?) :
    isBlank c = false :=
  isBlank_of_head?_dropWhile (mem_head?_of_append (isPrefix_dropTrailingBlanks _) h)

theorem getLast?_trimChars {cs : List Char} {c : Char} (h : c ∈ (trimChars cs).getLast?) :
    isBlank c = false := by
  rw [trimChars, dropTrailingBlanks, List.getLast?_reverse] at h
  exact isBlank_of_head?_dropWhile h

theorem isTrimmed_trim {s : String} (h : trim s ≠ "") : IsTrimmed (trim s) := by
  refine ⟨h, fun c hc => ?_, fun c hc => ?_⟩
  · rw [trim, String.toList_ofList] at hc
    exact head?_trimChars hc
  · rw [trim, String.toList_ofList] at hc
    exact getLast?_trimChars hc

private theorem dropWhile_eq_self {cs : List Char} (h : ∀ c ∈ cs.head?, isBlank c = false) :
    cs.dropWhile isBlank = cs := by
  cases cs with
  | nil => rfl
  | cons c cs =>
    have hc := h c rfl
    rw [List.dropWhile_cons_of_neg (by simp [hc])]

/-- Spaces behind a text are cut, and nothing more if the text does not end in a blank character. -/
theorem dropTrailingBlanks_append_spaces {cs : List Char} (k : Nat)
    (h : ∀ c ∈ cs.getLast?, isBlank c = false) :
    dropTrailingBlanks (cs ++ List.replicate k ' ') = cs := by
  have hspaces : ∀ c ∈ List.replicate k ' ', isBlank c = true := by
    intro c hc
    rw [List.eq_of_mem_replicate hc]
    rfl
  have hlast : ∀ c ∈ cs.reverse.head?, isBlank c = false := by
    rwa [List.head?_reverse]
  rw [dropTrailingBlanks, List.reverse_append, List.reverse_replicate,
    List.dropWhile_append_of_pos hspaces, dropWhile_eq_self hlast, List.reverse_reverse]

theorem IsTrimmed.trim_eq {s : String} (h : IsTrimmed s) : trim s = s := by
  have hlast : ∀ c ∈ s.toList.reverse.head?, isBlank c = false := by
    rw [List.head?_reverse]
    exact h.last
  rw [trim, trimChars, dropWhile_eq_self h.first, dropTrailingBlanks, dropWhile_eq_self hlast,
    List.reverse_reverse, String.ofList_toList]

theorem trim_eq_empty_iff {s : String} : trim s = "" ↔ ∀ c ∈ s.toList, isBlank c = true := by
  rw [trim, String.ofList_eq_empty_iff, trimChars, dropTrailingBlanks, List.reverse_eq_nil_iff,
    List.dropWhile_eq_nil_iff]
  simp only [List.mem_reverse]
  constructor
  · intro h
    have hhead : ∀ c ∈ (s.toList.dropWhile isBlank).head?, isBlank c = false :=
      fun c hc => isBlank_of_head?_dropWhile hc
    rw [← List.dropWhile_eq_nil_iff]
    cases hrest : s.toList.dropWhile isBlank with
    | nil => rfl
    | cons c rest =>
      have hblank := h c (hrest ▸ List.mem_cons_self)
      rw [hhead c (by rw [hrest]; rfl)] at hblank
      cases hblank
  · exact fun h c hc => h c ((List.dropWhile_suffix isBlank).subset hc)

/-- A text holds a character that is not blank. -/
def IsVisible (s : String) : Prop := ∃ c ∈ s.toList, isBlank c = false

theorem isVisible_iff {s : String} : IsVisible s ↔ trim s ≠ "" := by
  simp [IsVisible, trim_eq_empty_iff]

theorem isTrimmed_trim_iff {s : String} : IsTrimmed (trim s) ↔ IsVisible s := by
  rw [isVisible_iff]
  exact ⟨IsTrimmed.nonempty, isTrimmed_trim⟩

end ActionRegistry.Text
