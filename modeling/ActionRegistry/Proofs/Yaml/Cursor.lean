import Mathlib.Data.List.Basic
import Mathlib.Data.List.TakeWhile
import ActionRegistry.Yaml.Writer

/-!
# Places in a text that was written

What is written is printable, so of all line ends only the line feed and the two separators occur in
it, and of all blanks only the space. A scanner takes a run of characters at a time: a word, which
holds no separator of some kind, and then the separators up to the next word.
-/

namespace ActionRegistry.Yaml

open Writer

/-! ### Characters -/

theorem ne_of_class {p : Char → Bool} {c x : Char} (h : p c = true) (hx : p x = false) : c ≠ x := by
  rintro rfl
  cases h.symm.trans hx

theorem isAllowed_of_isPrintable {c : Char} (h : isPrintable c = true) : isAllowed c = true := by
  simp only [isPrintable, Bool.or_eq_true, Bool.and_eq_true, beq_iff_eq, decide_eq_true_eq,
    bne_iff_ne] at h
  simp only [isAllowed, Bool.or_eq_true, Bool.and_eq_true, beq_iff_eq, decide_eq_true_eq]
  omega

/-- The printable characters of ASCII. -/
def isAscii (c : Char) : Bool := 0x20 ≤ c.toNat && c.toNat ≤ 0x7E

theorem isPrintable_of_isAscii {c : Char} (h : isAscii c = true) : isPrintable c = true := by
  simp only [isAscii, Bool.and_eq_true, decide_eq_true_eq] at h
  simp only [isPrintable, Bool.or_eq_true, Bool.and_eq_true, beq_iff_eq, decide_eq_true_eq,
    bne_iff_ne]
  omega

theorem not_isBreak_of_isAscii {c : Char} (h : isAscii c = true) : isBreak c = false := by
  have hne : ∀ x, isAscii x = false → c ≠ x := by
    rintro x hx rfl
    cases h.symm.trans hx
  simp only [isAscii, Bool.and_eq_true, decide_eq_true_eq] at h
  have hcode : ∀ n, 0x7E < n → c.toNat ≠ n := by omega
  simp [isBreak, hne '\n' (by decide), hne '\r' (by decide), hcode 0x85 (by decide),
    hcode 0x2028 (by decide), hcode 0x2029 (by decide)]

theorem isBlank_iff {c : Char} (h : isPrintable c = true) : isBlank c = true ↔ c = ' ' := by
  have htab : c ≠ '\t' := ne_of_class h (by decide)
  simp [isBlank, htab]

theorem not_isBlank_of_isBreak {c : Char} (h : isBreak c = true) : isBlank c = false := by
  by_contra hblank
  simp only [isBlank, Bool.not_eq_false, Bool.or_eq_true, beq_iff_eq] at hblank
  rcases hblank with rfl | rfl <;> cases h

/-- What ends a word in a text that was written. -/
def isGap (c : Char) : Bool := isBlank c || isBreak c

theorem not_isGap_of_isAscii {c : Char} (h : isAscii c = true) (hspace : c ≠ ' ') :
    isGap c = false := by
  rw [isGap, not_isBreak_of_isAscii h, Bool.or_false, ← Bool.not_eq_true,
    isBlank_iff (isPrintable_of_isAscii h)]
  exact hspace

/-! ### Runs of characters -/

theorem not_of_mem_head?_dropWhile {p : Char → Bool} {cs : List Char} {c : Char}
    (h : c ∈ (cs.dropWhile p).head?) : p c = false := by
  have hhead := List.head?_dropWhile_not p cs
  rw [Option.mem_def.1 h] at hhead
  simpa using hhead

/-- A word, the separators after it, and what comes then. -/
theorem exists_run (p : Char → Bool) (cs : List Char) : ∃ word gap more, cs = word ++ (gap ++ more)
    ∧ (∀ c ∈ word, p c = false) ∧ (∀ c ∈ gap, p c = true) ∧ (∀ c ∈ more.head?, p c = false)
    ∧ (gap = [] → more = []) := by
  let word := cs.takeWhile fun c => !p c
  let rest := cs.dropWhile fun c => !p c
  refine ⟨word, rest.takeWhile p, rest.dropWhile p, ?_, ?_, ?_, ?_, ?_⟩
  · rw [List.takeWhile_append_dropWhile, List.takeWhile_append_dropWhile]
  · intro c hc
    simpa using List.mem_takeWhile_imp hc
  · exact fun c hc => List.mem_takeWhile_imp hc
  · exact fun c hc => not_of_mem_head?_dropWhile hc
  · intro hgap
    cases hrest : rest with
    | nil => rfl
    | cons c cs' =>
      have hc : c ∈ rest.head? := by simp [hrest]
      have hp : p c = true := by simpa using not_of_mem_head?_dropWhile hc
      simp [hrest, hp] at hgap

theorem takeWhile_append_of_stops {p : Char → Bool} {word rest : List Char}
    (hword : ∀ c ∈ word, p c = true) (hrest : ∀ c ∈ rest.head?, p c = false) :
    (word ++ rest).takeWhile p = word := by
  rw [List.takeWhile_append_of_pos hword]
  cases rest with
  | nil => simp
  | cons c cs => simp [hrest c (by simp)]

/-! ### Cursors -/

namespace Cursor

variable {word rest : List Char} {x : Char} {i l k : Nat}

@[simp] theorem peek_mk : (⟨rest, i, l, k⟩ : Cursor).peek = rest.head? := rfl

@[simp] theorem skip_append :
    (⟨word ++ rest, i, l, k⟩ : Cursor).skip word.length
      = ⟨rest, i + word.length, l, k + word.length⟩ := by
  simp [skip]

@[simp] theorem skip_one :
    (⟨x :: rest, i, l, k⟩ : Cursor).skip 1 = ⟨rest, i + 1, l, k + 1⟩ := rfl

theorem takeWhile_append {p : Char → Bool} (hword : ∀ c ∈ word, p c = true)
    (hrest : ∀ c ∈ rest.head?, p c = false) :
    (⟨word ++ rest, i, l, k⟩ : Cursor).takeWhile p
      = (word, ⟨rest, i + word.length, l, k + word.length⟩) := by
  rw [takeWhile]
  simp [takeWhile_append_of_stops hword hrest]

/-- A line end that was written counts as itself. -/
theorem takeBreak_of_isPrintable (hx : isBreak x = true) (hprintable : isPrintable x = true) :
    (⟨x :: rest, i, l, k⟩ : Cursor).takeBreak = ([x], ⟨rest, i + 1, l + 1, 0⟩) := by
  have hreturn : x ≠ '\r' := ne_of_class hprintable (by decide)
  by_cases hfeed : x = '\n'
  · subst hfeed
    rfl
  · have hnext : x.toNat ≠ 0x85 := by
      intro hx
      simp [isPrintable, hx] at hprintable
    have hseparator : ¬ x.toNat < 0x2028 := by
      simp only [isBreak, Bool.or_eq_true, beq_iff_eq, hfeed, hreturn, hnext, false_or] at hx
      omega
    rw [takeBreak.eq_def]
    split
    next heq => exact absurd (List.cons.inj heq).1 hreturn
    next heq =>
      obtain ⟨rfl, rfl⟩ := List.cons.inj heq
      rw [if_pos hx, if_neg hseparator]
    next heq => cases heq

/-- No document marker starts but at the start of a line. -/
theorem atDocumentMarker_of_column {c : Cursor} (h : c.column ≠ 0) :
    c.atDocumentMarker = false := by
  simp [atDocumentMarker, atMarker, h]

end Cursor

/-! ### Between words -/

namespace Token.Gap

variable {spaces breaks rest : List Char} {x : Char} {g : Gap} {margin fuel i l k : Nat}

theorem scan_of_stops (h : ∀ c ∈ rest.head?, isGap c = false) :
    scan margin fuel g ⟨rest, i, l, k⟩ = some (g, ⟨rest, i, l, k⟩) := by
  cases fuel with
  | zero => rfl
  | succ fuel =>
    cases rest with
    | nil => rfl
    | cons c cs =>
      have hc : isGap c = false := h c rfl
      obtain ⟨hblank, hbreak⟩ : isBlank c = false ∧ isBreak c = false := by simpa [isGap] using hc
      simp [scan, hblank, hbreak]

variable {b f r : List Char} {broken : Bool}

theorem scan_space : scan margin (fuel + 1) ⟨b, broken, f, r⟩ ⟨' ' :: rest, i, l, k⟩
    = scan margin fuel ⟨if broken then b else b ++ [' '], broken, f, r⟩
      ⟨rest, i + 1, l, k + 1⟩ := by
  have hblank : isBlank ' ' = true := by decide
  cases broken <;> simp [scan, hblank]

theorem scan_first_break (hx : isBreak x = true) (hprintable : isPrintable x = true) :
    scan margin (fuel + 1) ⟨b, false, f, r⟩ ⟨x :: rest, i, l, k⟩
      = scan margin fuel ⟨[], true, [x], []⟩ ⟨rest, i + 1, l + 1, 0⟩ := by
  have hblank : isBlank x = false := not_isBlank_of_isBreak hx
  simp [scan, hblank, hx, Cursor.takeBreak_of_isPrintable hx hprintable]

theorem scan_further_break (hx : isBreak x = true) (hprintable : isPrintable x = true) :
    scan margin (fuel + 1) ⟨b, true, f, r⟩ ⟨x :: rest, i, l, k⟩
      = scan margin fuel ⟨b, true, f, r ++ [x]⟩ ⟨rest, i + 1, l + 1, 0⟩ := by
  have hblank : isBlank x = false := not_isBlank_of_isBreak hx
  simp [scan, hblank, hx, Cursor.takeBreak_of_isPrintable hx hprintable]

/-- Spaces count before the first line end, and not after it. -/
theorem scan_spaces (hspaces : ∀ c ∈ spaces, c = ' ') (hrest : ∀ c ∈ rest.head?, isGap c = false)
    (hfuel : spaces.length ≤ fuel) :
    scan margin fuel ⟨b, broken, f, r⟩ ⟨spaces ++ rest, i, l, k⟩
      = some (⟨if broken then b else b ++ spaces, broken, f, r⟩,
        ⟨rest, i + spaces.length, l, k + spaces.length⟩) := by
  induction spaces generalizing fuel b i k with
  | nil => simpa using scan_of_stops hrest
  | cons c spaces ih =>
    rw [List.forall_mem_cons] at hspaces
    obtain ⟨rfl, hspaces⟩ := hspaces
    rw [List.length_cons] at hfuel
    obtain ⟨fuel, rfl⟩ : ∃ n, fuel = n + 1 := ⟨fuel - 1, by omega⟩
    rw [List.cons_append, scan_space, ih hspaces (by omega), List.length_cons]
    have hplus : ∀ n, n + 1 + spaces.length = n + (spaces.length + 1) := by omega
    cases broken <;> simp [hplus]

/-- The line ends after the first one are kept, and the spaces after them are not. -/
theorem scan_breaks (hbreaks : ∀ c ∈ breaks, isBreak c = true ∧ isPrintable c = true)
    (hspaces : ∀ c ∈ spaces, c = ' ') (hrest : ∀ c ∈ rest.head?, isGap c = false)
    (margin fuel : Nat) (b f r : List Char) (i l : Nat)
    (hfuel : breaks.length + spaces.length ≤ fuel) :
    ∃ i' l', scan margin fuel ⟨b, true, f, r⟩ ⟨breaks ++ (spaces ++ rest), i, l, 0⟩
      = some (⟨b, true, f, r ++ breaks⟩, ⟨rest, i', l', spaces.length⟩) := by
  induction breaks generalizing fuel r i l with
  | nil =>
    rw [List.nil_append, scan_spaces hspaces hrest (by simpa using hfuel)]
    simp
  | cons c breaks ih =>
    obtain ⟨⟨hbreak, hprintable⟩, hbreaks⟩ := List.forall_mem_cons.1 hbreaks
    rw [List.length_cons] at hfuel
    obtain ⟨fuel, rfl⟩ : ∃ n, fuel = n + 1 := ⟨fuel - 1, by omega⟩
    obtain ⟨i', l', hscan⟩ := ih hbreaks fuel (r ++ [c]) (i + 1) (l + 1) (by omega)
    refine ⟨i', l', ?_⟩
    rw [List.cons_append, scan_further_break hbreak hprintable, hscan]
    simp

end Token.Gap

end ActionRegistry.Yaml
