import ActionRegistry.Proofs.Yaml.Cursor

/-!
# Plain scalars that were written

A plain text is read word by word, with the spaces between the words as they stand. It ends with its
line, since the next line starts left of the margin.
-/

namespace ActionRegistry.Yaml

open Writer

/-- Texts that may stand plain on one line: they neither start nor end with a space, their words are
separated by spaces alone, and no markup is in them. -/
structure IsPlain (cs : List Char) : Prop where
  ne_nil : cs ≠ []
  inLine : ∀ c ∈ cs, isGap c = true → c = ' '
  head : ∀ c ∈ cs.head?, c ≠ ' '
  last : ∀ c ∈ cs.getLast?, c ≠ ' '
  unmarked : hasMarkup (' ' :: cs) = false

/-- The characters of keys. -/
def isKeyChar (c : Char) : Bool := c.isAlpha || c == '_'

theorem toNat_of_isKeyChar {c : Char} (h : isKeyChar c = true) : 65 ≤ c.toNat ∧ c.toNat ≤ 122 := by
  rw [isKeyChar, Bool.or_eq_true, beq_iff_eq] at h
  rcases h with h | rfl
  · change (decide (65 ≤ c.val ∧ c.val ≤ 90) || decide (97 ≤ c.val) && decide (c.val ≤ 122)) = true
      at h
    simp only [Bool.or_eq_true, Bool.and_eq_true, decide_eq_true_eq, UInt32.le_iff_toNat_le] at h
    change (65 ≤ c.toNat ∧ c.toNat ≤ 90) ∨ (97 ≤ c.toNat ∧ c.toNat ≤ 122) at h
    omega
  · decide

theorem isAscii_of_isKeyChar {c : Char} (h : isKeyChar c = true) : isAscii c = true := by
  have hbounds := toNat_of_isKeyChar h
  simp only [isAscii, Bool.and_eq_true, decide_eq_true_eq]
  omega

theorem not_isGap_of_isKeyChar {c : Char} (h : isKeyChar c = true) : isGap c = false :=
  not_isGap_of_isAscii (isAscii_of_isKeyChar h) (ne_of_class h (by decide))

theorem hasMarkup_of_cons {a : Char} {cs : List Char} (h : hasMarkup (a :: cs) = false) :
    hasMarkup cs = false := by
  cases cs with
  | nil => rfl
  | cons b cs =>
    rw [hasMarkup, Bool.or_eq_false_iff] at h
    exact h.2

theorem hasMarkup_of_append {front cs : List Char} (h : hasMarkup (front ++ cs) = false) :
    hasMarkup cs = false := by
  induction front with
  | nil => exact h
  | cons a front ih => exact ih (hasMarkup_of_cons h)

theorem hasMarkup_of_ne {a : Char} {cs : List Char} (h : ∀ c ∈ cs, c ≠ ':' ∧ c ≠ '#') :
    hasMarkup (a :: cs) = false := by
  induction cs generalizing a with
  | nil => rfl
  | cons c cs ih =>
    obtain ⟨⟨hcolon, hsign⟩, h⟩ := List.forall_mem_cons.1 h
    rw [hasMarkup, ih h]
    simp [hcolon, hsign]

namespace IsPlain

variable {cs : List Char}

/-- A word without colons and number signs may stand plain. -/
theorem of_word (hne : cs ≠ []) (h : ∀ c ∈ cs, isGap c = false ∧ c ≠ ':' ∧ c ≠ '#') :
    IsPlain cs := by
  have hspace : ∀ c ∈ cs, c ≠ ' ' := by
    rintro c hc rfl
    cases (h ' ' hc).1
  refine ⟨hne, fun c hc hgap => ?_, fun c hc => ?_, fun c hc => ?_, ?_⟩
  · cases (h c hc).1.symm.trans hgap
  · exact hspace c (List.mem_of_head? hc)
  · exact hspace c (List.mem_of_getLast? hc)
  · exact hasMarkup_of_ne fun c hc => (h c hc).2

theorem head?_ne (h : IsPlain cs) : cs.head? ≠ some '#' := by
  intro hhead
  obtain ⟨rest, rfl⟩ := List.head?_eq_some_iff.1 hhead
  cases h.unmarked

/-- A plain text is one word, or a word and spaces before a plain text. -/
theorem exists_words (h : IsPlain cs) : ∃ word gap more, cs = word ++ (gap ++ more)
    ∧ word ≠ [] ∧ (∀ c ∈ word, isGap c = false) ∧ (∀ c ∈ gap, c = ' ')
    ∧ (gap = [] ∧ more = [] ∨ gap ≠ [] ∧ IsPlain more ∧ ∀ c ∈ more.head?, isGap c = false) := by
  obtain ⟨word, gap, more, rfl, hword, hgap, hmore, hnil⟩ := exists_run isGap cs
  have hspaces : ∀ c ∈ gap, c = ' ' := fun c hc => h.inLine c (by simp [hc]) (hgap c hc)
  have hne : word ≠ [] := by
    rintro rfl
    cases gap with
    | nil =>
      rw [hnil rfl] at h
      exact h.ne_nil rfl
    | cons c gap => exact h.head c rfl (hspaces c List.mem_cons_self)
  refine ⟨word, gap, more, rfl, hne, hword, hspaces, ?_⟩
  rcases List.eq_nil_or_concat gap with rfl | ⟨before, c, rfl⟩
  · exact .inl ⟨rfl, hnil rfl⟩
  · obtain rfl : c = ' ' := hspaces c (by simp)
    have hmore' : more ≠ [] := by
      rintro rfl
      exact h.last ' ' (by simp) rfl
    refine .inr ⟨by simp, ⟨hmore', fun c hc => h.inLine c (by simp [hc]), ?_, ?_, ?_⟩, hmore⟩
    · rintro c hc rfl
      cases hmore ' ' hc
    · intro c hc
      refine h.last c ?_
      rw [← List.append_assoc, List.getLast?_append, Option.mem_def.1 hc]
      rfl
    · have hmarkup := h.unmarked
      have hsplit : ' ' :: (word ++ (before.concat ' ' ++ more))
          = (' ' :: word ++ before) ++ (' ' :: more) := by simp
      rw [hsplit] at hmarkup
      exact hasMarkup_of_append hmarkup

end IsPlain

namespace Token

variable {word cs rest b : List Char} {a : Char} {fuel i l k : Nat}

theorem endsWord_head?_append : endsWord (cs ++ '\n' :: rest).head? = endsWord cs.head? := by
  cases cs <;> rfl

theorem plainWord_append (hword : ∀ c ∈ word, isGap c = false)
    (hmarkup : hasMarkup (a :: (word ++ cs)) = false) (hcs : ∀ c ∈ cs.head?, isGap c = true) :
    plainWord false (word ++ (cs ++ '\n' :: rest)) = some word := by
  induction word generalizing a with
  | nil =>
    cases cs with
    | nil => rfl
    | cons c cs =>
      have hc : isGap c = true := hcs c rfl
      rw [isGap] at hc
      simp [plainWord, hc]
  | cons c word ih =>
    obtain ⟨hc, hword⟩ := List.forall_mem_cons.1 hword
    rw [isGap] at hc
    rw [List.cons_append, hasMarkup, Bool.or_eq_false_iff, Bool.or_eq_false_iff] at hmarkup
    obtain ⟨⟨hcolon, _⟩, hmarkup⟩ := hmarkup
    have hend : (c == ':' && endsWord (word ++ (cs ++ '\n' :: rest)).head?) = false := by
      rw [← List.append_assoc, endsWord_head?_append]
      exact hcolon
    rw [List.cons_append, plainWord, hc, hend, ih hword hmarkup]
    simp

/-- One word of a plain text, with the gap after it. -/
theorem plainRest_word {tail : List Char} {g : Gap} {c : Cursor} (hk : k ≠ 0) (hne : word ≠ [])
    (hcomment : (word ++ tail).head? ≠ some '#')
    (hword : plainWord false (word ++ tail) = some word)
    (htail : ∃ x ∈ tail.head?, isGap x = true)
    (hgap : Gap.scan 1 tail.length Gap.none ⟨tail, i + word.length, l, k + word.length⟩
      = some (g, c)) :
    plainRest false 1 (fuel + 1) ⟨b, false, [], []⟩ ⟨word ++ tail, i, l, k⟩
      = if c.column < 1 then some ⟨b ++ word, g.isBroken, c⟩
        else (plainRest false 1 fuel g c).map fun p => { p with text := b ++ word ++ p.text } := by
  have hmarker : (⟨word ++ tail, i, l, k⟩ : Cursor).atDocumentMarker = false :=
    Cursor.atDocumentMarker_of_column hk
  have hsees : (⟨word ++ tail, i, l, k⟩ : Cursor).sees '#' = false := by
    simpa only [Cursor.sees, Cursor.peek_mk, beq_eq_false_iff_ne] using hcomment
  have hend : (tail.head?.any fun x => isBlank x || isBreak x) = true := by
    obtain ⟨x, hx, hxgap⟩ := htail
    rw [Option.mem_def.1 hx]
    exact hxgap
  simp [plainRest, hmarker, hsees, hword, hne, hend, hgap, Gap.text]

/-- The last word is read with the line end after it. -/
theorem plainRest_last (hne : word ≠ []) (hword : ∀ c ∈ word, isGap c = false)
    (hmarkup : hasMarkup (a :: word) = false) (hcomment : word.head? ≠ some '#')
    (hrest : ∀ c ∈ rest.head?, isGap c = false) (hk : k ≠ 0) :
    plainRest false 1 (fuel + 1) ⟨b, false, [], []⟩ ⟨word ++ '\n' :: rest, i, l, k⟩
      = some ⟨b ++ word, true, ⟨rest, i + word.length + 1, l + 1, 0⟩⟩ := by
  have hplain : plainWord false (word ++ ([] ++ '\n' :: rest)) = some word :=
    plainWord_append hword (by rwa [List.append_nil]) nofun
  have hscan : Gap.scan 1 ('\n' :: rest).length Gap.none
      ⟨'\n' :: rest, i + word.length, l, k + word.length⟩
      = some (⟨[], true, ['\n'], []⟩, ⟨rest, i + word.length + 1, l + 1, 0⟩) := by
    rw [List.length_cons, Gap.none, Gap.scan_first_break (by decide) (by decide),
      Gap.scan_of_stops hrest]
  have hfirst : (word ++ '\n' :: rest).head? ≠ some '#' := by
    rwa [List.head?_append_of_ne_nil _ hne]
  rw [plainRest_word hk hne hfirst hplain ⟨'\n', rfl, rfl⟩ hscan]
  rfl

/-- A word is read with the spaces after it, which are then before the next word. -/
theorem plainRest_spaces {gap more : List Char} (hne : word ≠ [])
    (hword : ∀ c ∈ word, isGap c = false)
    (hmarkup : hasMarkup (a :: (word ++ (gap ++ more))) = false)
    (hcomment : word.head? ≠ some '#') (hgap : ∀ c ∈ gap, c = ' ') (hgap' : gap ≠ [])
    (hmore : more ≠ []) (hstart : ∀ c ∈ more.head?, isGap c = false) (hk : k ≠ 0) :
    plainRest false 1 (fuel + 1) ⟨b, false, [], []⟩
        ⟨word ++ (gap ++ (more ++ '\n' :: rest)), i, l, k⟩
      = (plainRest false 1 fuel ⟨gap, false, [], []⟩ ⟨more ++ '\n' :: rest,
          i + word.length + gap.length, l, k + word.length + gap.length⟩).map
        fun p => { p with text := b ++ word ++ p.text } := by
  obtain ⟨x, hx, hxgap⟩ : ∃ x ∈ (gap ++ more).head?, isGap x = true := by
    obtain ⟨x, gap, rfl⟩ := List.exists_cons_of_ne_nil hgap'
    exact ⟨x, rfl, by rw [hgap x List.mem_cons_self]; decide⟩
  have hplain : plainWord false (word ++ (gap ++ (more ++ '\n' :: rest))) = some word := by
    rw [← List.append_assoc gap]
    exact plainWord_append hword hmarkup fun c hc => Option.mem_unique hx hc ▸ hxgap
  have hscan : Gap.scan 1 (gap ++ (more ++ '\n' :: rest)).length Gap.none
      ⟨gap ++ (more ++ '\n' :: rest), i + word.length, l, k + word.length⟩
      = some (⟨gap, false, [], []⟩, ⟨more ++ '\n' :: rest, i + word.length + gap.length, l,
        k + word.length + gap.length⟩) := by
    rw [Gap.none, Gap.scan_spaces hgap ?_ (by simp)]
    · simp
    · rwa [List.head?_append_of_ne_nil _ hmore]
  have hfirst : (word ++ (gap ++ (more ++ '\n' :: rest))).head? ≠ some '#' := by
    rwa [List.head?_append_of_ne_nil _ hne]
  have hhead : ∃ x ∈ (gap ++ (more ++ '\n' :: rest)).head?, isGap x = true := by
    refine ⟨x, ?_, hxgap⟩
    rwa [List.head?_append_of_ne_nil _ hgap'] at hx ⊢
  have hcolumn : ¬ k + word.length + gap.length < 1 := by omega
  rw [plainRest_word hk hne hfirst hplain hhead hscan, if_neg hcolumn]

/-- A plain text is read to the start of the next line. -/
theorem plainRest_eq (h : IsPlain cs) (hrest : ∀ c ∈ rest.head?, isGap c = false) (hk : k ≠ 0)
    (hfuel : cs.length < fuel) :
    plainRest false 1 fuel ⟨b, false, [], []⟩ ⟨cs ++ '\n' :: rest, i, l, k⟩
      = some ⟨b ++ cs, true, ⟨rest, i + cs.length + 1, l + 1, 0⟩⟩ := by
  induction fuel generalizing cs b i k with
  | zero => omega
  | succ fuel ih =>
    have hcomment := h.head?_ne
    have hmarkup := h.unmarked
    obtain ⟨word, gap, more, rfl, hne, hword, hgap, hend⟩ := h.exists_words
    rw [List.head?_append_of_ne_nil _ hne] at hcomment
    rcases hend with ⟨rfl, rfl⟩ | ⟨hgap', hmore, hstart⟩
    · rw [List.append_nil, List.append_nil] at hmarkup ⊢
      exact plainRest_last hne hword hmarkup hcomment hrest hk
    · have hpositive : 0 < word.length := List.length_pos_iff.2 hne
      simp only [List.length_append] at hfuel
      rw [List.append_assoc, List.append_assoc, plainRest_spaces hne hword hmarkup hcomment hgap
        hgap' hmore.ne_nil hstart hk, ih hmore (by omega) (by omega)]
      simp [Nat.add_assoc]

theorem plain_eq (h : IsPlain cs) (hrest : ∀ c ∈ rest.head?, isGap c = false) (hk : k ≠ 0) :
    plain false 1 ⟨cs ++ '\n' :: rest, i, l, k⟩
      = some ⟨cs, true, ⟨rest, i + cs.length + 1, l + 1, 0⟩⟩ := by
  rw [plain, Gap.none, plainRest_eq h hrest hk]
  · simp
  · rw [List.length_append]
    omega

/-! ### Keys -/

theorem plainWord_key (hword : ∀ c ∈ word, isKeyChar c = true) :
    plainWord false (word ++ ':' :: ' ' :: rest) = some word := by
  induction word with
  | nil => rfl
  | cons c word ih =>
    obtain ⟨hc, hword⟩ := List.forall_mem_cons.1 hword
    have hgap : (isBlank c || isBreak c) = false := not_isGap_of_isKeyChar hc
    have hcolon : c ≠ ':' := ne_of_class hc (by decide)
    rw [List.cons_append, plainWord, hgap, ih hword]
    simp [hcolon]

theorem plain_key {margin : Nat} (hne : word ≠ []) (hword : ∀ c ∈ word, isKeyChar c = true) :
    plain false margin ⟨word ++ ':' :: ' ' :: rest, i, l, k⟩
      = some ⟨word, false, ⟨':' :: ' ' :: rest, i + word.length, l, k + word.length⟩⟩ := by
  have hfirst : ∀ x, isKeyChar x = false → (word ++ ':' :: ' ' :: rest).head? ≠ some x := by
    obtain ⟨c, tail, rfl⟩ := List.exists_cons_of_ne_nil hne
    intro x hx hhead
    exact ne_of_class (hword c List.mem_cons_self) hx (Option.some.inj hhead)
  have hmarker : (⟨word ++ ':' :: ' ' :: rest, i, l, k⟩ : Cursor).atDocumentMarker = false := by
    have hdash := hfirst '-' (by decide)
    have hdot := hfirst '.' (by decide)
    simp only [Cursor.atDocumentMarker, Cursor.atMarker, Cursor.peek_mk]
    simp only [beq_eq_false_iff_ne.2 hdash, beq_eq_false_iff_ne.2 hdot, Bool.and_false,
      Bool.false_and, Bool.or_self]
  have hsees : (⟨word ++ ':' :: ' ' :: rest, i, l, k⟩ : Cursor).sees '#' = false :=
    beq_eq_false_iff_ne.2 (hfirst '#' (by decide))
  have hcolon : (isBlank ':' || isBreak ':') = false := by decide
  simp [plain, plainRest, hmarker, hsees, plainWord_key hword, hne, Gap.text, Gap.none, hcolon]

end Token

end ActionRegistry.Yaml
