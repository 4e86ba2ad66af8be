import ActionRegistry.Proofs.Yaml.Cursor
import ActionRegistry.Proofs.Yaml.Digits

/-!
# Quoted scalars that were written

Between quotes a text is spelled word by word. A character of a word stands for itself, or it is
doubled or escaped; spaces stand for themselves, and line ends too, with the next line indented. So
what a scanner takes for a word, and for what is between two words, is what was spelled there.
-/

namespace ActionRegistry.Yaml

open Writer

/-! ### Escapes -/

theorem escape?_digits {width n : Nat} {letter : Char} {c : Char} {rest : List Char}
    (hletter : Token.escapeDigits? letter = some width) (hwidth : 0 < width) (hn : c.toNat = n)
    (h : n < 16 ^ width) :
    Token.escape? (letter :: upperHex width n ++ rest)
      = some (c, (letter :: upperHex width n).length) := by
  have hlength : (upperHex width n).length = width := length_upperHex hwidth h
  have htake : (upperHex width n ++ rest).take width = upperHex width n := by
    rw [List.take_append_of_le_length hlength.ge, List.take_of_length_le hlength.le]
  have hvalid : n.isValidChar := hn ▸ c.valid
  have hc : Char.ofNat n = c := hn ▸ Char.ofNat_toNat c
  simp [Token.escape?, hletter, htake, hlength, hexNumber?_upperHex, hvalid, hc, Nat.add_comm]

theorem escape?_escapeOf (c : Char) (rest : List Char) :
    Token.escape? (escapeOf c ++ rest) = some (c, (escapeOf c).length) := by
  rw [escapeOf]
  split
  case h_15 =>
    have hbound : c.toNat < 16 ^ 8 := c.val.toNat_lt
    split
    next hbyte => exact escape?_digits rfl (by omega) rfl hbyte
    split
    next hword => exact escape?_digits rfl (by omega) rfl hword
    exact escape?_digits rfl (by omega) rfl hbound
  all_goals
    next hc =>
      have hchar := Char.ofNat_toNat c
      rw [hc] at hchar
      subst hchar
      rfl

theorem isAscii_of_mem_escapeOf {c x : Char} (h : x ∈ escapeOf c) : isAscii x = true := by
  have hdigits : ∀ {letter : Char} {width n : Nat}, isAscii letter = true →
      x ∈ letter :: upperHex width n → isAscii x = true := by
    intro letter width n hletter hx
    rcases List.mem_cons.1 hx with rfl | hx
    · exact hletter
    · exact isAscii_of_mem_upperHex hx
  rw [escapeOf] at h
  split at h
  case h_15 =>
    split at h
    · exact hdigits (by decide) h
    split at h
    · exact hdigits (by decide) h
    · exact hdigits (by decide) h
  all_goals
    rw [List.mem_singleton.1 h]
    decide

theorem escapeOf_ne_nil (c : Char) : escapeOf c ≠ [] := by
  rw [escapeOf]
  split
  case h_15 => split <;> [skip; split] <;> simp
  all_goals simp

/-! ### Words between quotes -/

def quote (single : Bool) : Char := if single then '\x27' else '"'

/-- A character as it is spelled between quotes. -/
def spelling (single : Bool) (c : Char) : List Char :=
  if single then (if c == '\x27' then [c, c] else [c])
  else if !isPrintable c || isBreak c || c == '"' || c == '\\' then '\\' :: escapeOf c
  else [c]

/-- What may stand in a word between quotes: anything but a space, and no line end between
apostrophes. -/
def isSpelled (single : Bool) (c : Char) : Bool :=
  if single then isPrintable c && !isGap c else c != ' '

section Word

variable {single : Bool} {c : Char} {word tail : List Char} {fuel i l k : Nat}

theorem quotedWord_apostrophes (hc : isSpelled true c = true) :
    Token.quotedWord true (fuel + 1) ⟨spelling true c ++ tail, i, l, k⟩
      = (Token.quotedWord true fuel ⟨tail, i + (spelling true c).length, l,
        k + (spelling true c).length⟩).map fun (w, e) => (c :: w, e) := by
  have hgap : (isBlank c || isBreak c) = false := by
    simp only [isSpelled, if_true, Bool.and_eq_true, Bool.not_eq_true'] at hc
    exact hc.2
  by_cases hquote : c = '\x27'
  · subst hquote
    simp [spelling, Token.quotedWord, hgap, Cursor.skip]
  · simp [spelling, Token.quotedWord, hgap, hquote]

theorem quotedWord_escape (c : Char) :
    Token.quotedWord false (fuel + 1) ⟨'\\' :: escapeOf c ++ tail, i, l, k⟩
      = (Token.quotedWord false fuel ⟨tail, i + ('\\' :: escapeOf c).length, l,
        k + ('\\' :: escapeOf c).length⟩).map fun (w, e) => (c :: w, e) := by
  have hhead : (escapeOf c ++ tail).head?.any isBreak = false := by
    obtain ⟨x, ds, hx⟩ := List.exists_cons_of_ne_nil (escapeOf_ne_nil c)
    have hmem : x ∈ escapeOf c := hx ▸ List.mem_cons_self
    simp [hx, not_isBreak_of_isAscii (isAscii_of_mem_escapeOf hmem)]
  have hread : Token.escape? (escapeOf c ++ tail) = some (c, (escapeOf c).length) :=
    escape?_escapeOf c tail
  have hgap : (isBlank '\\' || isBreak '\\') = false := by decide
  have hskip : (⟨'\\' :: (escapeOf c ++ tail), i, l, k⟩ : Cursor).skip (1 + (escapeOf c).length)
      = ⟨tail, i + ((escapeOf c).length + 1), l, k + ((escapeOf c).length + 1)⟩ := by
    simp [Cursor.skip, Nat.add_comm 1]
  rw [List.cons_append, Token.quotedWord, List.length_cons]
  simp only [hgap, hhead, hread, hskip, Bool.false_and, Bool.false_eq_true, if_false,
    beq_self_eq_true, Bool.not_false, Bool.and_self, if_true, Option.bind_eq_bind,
    Option.bind_some]
  rw [if_neg (by decide), Option.map_eq_bind]
  rfl

theorem quotedWord_quotes (hc : isSpelled false c = true) :
    Token.quotedWord false (fuel + 1) ⟨spelling false c ++ tail, i, l, k⟩
      = (Token.quotedWord false fuel ⟨tail, i + (spelling false c).length, l,
        k + (spelling false c).length⟩).map fun (w, e) => (c :: w, e) := by
  have hspace : c ≠ ' ' := by simpa [isSpelled] using hc
  rw [spelling, if_neg Bool.false_ne_true]
  split
  next => exact quotedWord_escape c
  next hplain =>
    simp only [Bool.or_eq_true, Bool.not_eq_true', not_or, Bool.not_eq_true, Bool.not_eq_false,
      beq_iff_eq] at hplain
    obtain ⟨⟨⟨hprintable, hbreak⟩, hquote⟩, hslash⟩ := hplain
    have hblank : isBlank c = false := by
      rw [← Bool.not_eq_true, isBlank_iff hprintable]
      exact hspace
    simp [Token.quotedWord, hblank, hbreak, hquote, hslash]

theorem quotedWord_spelling (hc : isSpelled single c = true) :
    Token.quotedWord single (fuel + 1) ⟨spelling single c ++ tail, i, l, k⟩
      = (Token.quotedWord single fuel ⟨tail, i + (spelling single c).length, l,
        k + (spelling single c).length⟩).map fun (w, e) => (c :: w, e) := by
  cases single with
  | true => exact quotedWord_apostrophes hc
  | false => exact quotedWord_quotes hc

theorem spelling_ne_nil (single : Bool) (c : Char) : spelling single c ≠ [] := by
  rw [spelling]
  repeat' split
  all_goals simp

/-- A word ends before a separator, and before the closing quote at the end of the line. -/
def EndsWord (single : Bool) (tail : List Char) : Prop :=
  (∃ x ∈ tail.head?, isGap x = true) ∨ ∃ rest, tail = quote single :: '\n' :: rest

theorem quotedWord_end (h : EndsWord single tail) :
    Token.quotedWord single fuel ⟨tail, i, l, k⟩ = some ([], ⟨tail, i, l, k⟩, .plain) := by
  cases fuel with
  | zero => rfl
  | succ fuel =>
    rcases h with ⟨x, hx, hgap⟩ | ⟨rest, rfl⟩
    · obtain ⟨rest, rfl⟩ := List.head?_eq_some_iff.1 hx
      rw [isGap] at hgap
      simp [Token.quotedWord, hgap]
    · cases single <;> simp [Token.quotedWord, quote]

theorem quotedWord_word (hword : ∀ c ∈ word, isSpelled single c = true) (h : EndsWord single tail)
    (hfuel : word.length ≤ fuel) :
    Token.quotedWord single fuel ⟨word.flatMap (spelling single) ++ tail, i, l, k⟩
      = some (word, ⟨tail, i + (word.flatMap (spelling single)).length, l,
        k + (word.flatMap (spelling single)).length⟩, .plain) := by
  induction word generalizing fuel i k with
  | nil => simpa using quotedWord_end h
  | cons c word ih =>
    obtain ⟨hc, hword⟩ := List.forall_mem_cons.1 hword
    rw [List.length_cons] at hfuel
    obtain ⟨fuel, rfl⟩ : ∃ n, fuel = n + 1 := ⟨fuel - 1, by omega⟩
    rw [List.flatMap_cons, List.append_assoc, quotedWord_spelling hc, ih hword (by omega)]
    simp [Nat.add_assoc]

end Word

/-! ### Texts between quotes -/

/-- What is between two words, and how it is written: spaces as they are, and line ends with the
next line indented. -/
inductive Spreads : (gap form : List Char) → Prop where
  | spaces {gap : List Char} (hne : gap ≠ []) (h : ∀ c ∈ gap, c = ' ') : Spreads gap gap
  | breaks {x : Char} {gap : List Char} (hx : x ≠ '\n')
      (h : ∀ c ∈ x :: gap, isBreak c = true ∧ isPrintable c = true) :
      Spreads (x :: gap) (x :: gap ++ indentation)

/-- How a text is written between quotes: word by word. -/
inductive Spells (single : Bool) : (text form : List Char) → Prop where
  | word {word : List Char} (hword : ∀ c ∈ word, isSpelled single c = true) :
      Spells single word (word.flatMap (spelling single))
  | gap {word gap spread more form : List Char} (hword : ∀ c ∈ word, isSpelled single c = true)
      (hgap : Spreads gap spread) (hform : ∀ c ∈ form.head?, isGap c = false)
      (h : Spells single more form) :
      Spells single (word ++ (gap ++ more)) (word.flatMap (spelling single) ++ (spread ++ form))

section Reading

variable {single : Bool} {cs form word gap spread rest : List Char} {fuel n i l k : Nat}

theorem Spreads.isGap_head? (h : Spreads gap spread) : ∃ x ∈ spread.head?, isGap x = true := by
  cases h with
  | spaces hne h =>
    obtain ⟨x, more, rfl⟩ := List.exists_cons_of_ne_nil hne
    refine ⟨x, rfl, ?_⟩
    rw [h x List.mem_cons_self]
    decide
  | breaks hx h =>
    refine ⟨_, rfl, ?_⟩
    rw [isGap, (h _ List.mem_cons_self).1, Bool.or_true]

/-- What is between two words is read as it was. -/
theorem Spreads.scan (h : Spreads gap spread) (hrest : ∀ c ∈ rest.head?, isGap c = false)
    (fuel i l : Nat) (hk : k ≠ 0) (hfuel : spread.length ≤ fuel) :
    ∃ g i' l' k', k' ≠ 0 ∧ g.text = gap
      ∧ Token.Gap.scan 0 fuel Token.Gap.none ⟨spread ++ rest, i, l, k⟩
        = some (g, ⟨rest, i', l', k'⟩) := by
  cases h with
  | spaces hne h =>
    refine ⟨_, _, _, _, ?_, ?_, Token.Gap.scan_spaces h hrest hfuel⟩
    · omega
    · rfl
  | @breaks x gap hx h =>
    obtain ⟨⟨hbreak, hprintable⟩, hgap⟩ := List.forall_mem_cons.1 h
    rw [List.length_append, List.length_cons] at hfuel
    obtain ⟨fuel, rfl⟩ : ∃ n, fuel = n + 1 := ⟨fuel - 1, by omega⟩
    have hindentation : ∀ c ∈ indentation, c = ' ' := by simp [indentation]
    obtain ⟨i', l', hscan⟩ := Token.Gap.scan_breaks hgap hindentation hrest 0 fuel [] [x] [] (i + 1)
      (l + 1) (by omega)
    refine ⟨⟨[], true, [x], [] ++ gap⟩, i', l', indentation.length, by decide, ?_, ?_⟩
    · simp [Token.Gap.text, hx]
    · rw [List.append_assoc, List.cons_append, Token.Gap.none,
        Token.Gap.scan_first_break hbreak hprintable, hscan]

theorem Spreads.length_pos (h : Spreads gap spread) : 0 < gap.length := by
  cases h with
  | spaces hne _ => exact List.length_pos_iff.2 hne
  | breaks _ _ => simp

theorem not_isGap_quote (single : Bool) : isGap (quote single) = false := by
  cases single <;> decide

theorem length_le_spelled (single : Bool) (word : List Char) :
    word.length ≤ (word.flatMap (spelling single)).length := by
  induction word with
  | nil => exact Nat.le_refl 0
  | cons c word ih =>
    have hc := List.length_pos_iff.2 (spelling_ne_nil single c)
    rw [List.flatMap_cons, List.length_append, List.length_cons]
    omega

/-- One word, and the closing quote or what is before the next word. -/
theorem quotedRest_word {tail : List Char} (hword : ∀ c ∈ word, isSpelled single c = true)
    (htail : EndsWord single tail) (hk : k ≠ 0) (hn : (word.flatMap (spelling single)).length = n) :
    Token.quotedRest single (fuel + 1) ⟨word.flatMap (spelling single) ++ tail, i, l, k⟩
      = if tail.head? = some (quote single) then some (word, ⟨tail.drop 1, i + n + 1, l, k + n + 1⟩)
        else (Token.Gap.scan 0 tail.length Token.Gap.none ⟨tail, i + n, l, k + n⟩).bind fun gc =>
          (Token.quotedRest single fuel gc.2).map fun tc => (word ++ gc.1.text ++ tc.1, tc.2) := by
  have hlength : word.length ≤ (word.flatMap (spelling single) ++ tail).length := by
    have := length_le_spelled single word
    rw [List.length_append]
    omega
  have hread := quotedWord_word (i := i) (l := l) (k := k) hword htail hlength
  have hmarker : (⟨word.flatMap (spelling single) ++ tail, i, l, k⟩ : Cursor).atDocumentMarker
      = false := Cursor.atDocumentMarker_of_column hk
  have hnonempty : (word.flatMap (spelling single) ++ tail).isEmpty = false := by
    rcases htail with ⟨x, hx, _⟩ | ⟨rest, rfl⟩
    · obtain ⟨more, rfl⟩ := List.head?_eq_some_iff.1 hx
      simp
    · simp
  rw [Token.quotedRest, hmarker, hnonempty, hread, hn]
  simp only [Bool.or_self, Bool.false_eq_true, if_false, Option.bind_eq_bind, Option.bind_some,
    Cursor.sees, Cursor.peek_mk, beq_iff_eq, Option.map_eq_bind]
  rfl

theorem Spells.quotedRest (h : Spells single cs form) (rest : List Char) (fuel i l : Nat)
    (hk : k ≠ 0) (hfuel : cs.length < fuel) :
    ∃ i' l' k', Token.quotedRest single fuel ⟨form ++ quote single :: '\n' :: rest, i, l, k⟩
      = some (cs, ⟨'\n' :: rest, i', l', k'⟩) := by
  induction h generalizing fuel i l k with
  | @word word hword =>
    obtain ⟨fuel, rfl⟩ : ∃ n, fuel = n + 1 := ⟨fuel - 1, by omega⟩
    exact ⟨_, _, _, (quotedRest_word hword (.inr ⟨rest, rfl⟩) hk rfl).trans (if_pos rfl)⟩
  | @gap word gap spread more form hword hgap hform _ ih =>
    obtain ⟨fuel, rfl⟩ : ∃ n, fuel = n + 1 := ⟨fuel - 1, by omega⟩
    obtain ⟨x, hx, hxgap⟩ := hgap.isGap_head?
    let tail := spread ++ (form ++ quote single :: '\n' :: rest)
    have hhead : x ∈ tail.head? := by
      obtain ⟨more, rfl⟩ := List.head?_eq_some_iff.1 hx
      exact rfl
    have hopen : tail.head? ≠ some (quote single) := by
      intro hclose
      have heq : x = quote single := Option.some.inj (hhead.symm.trans hclose)
      rw [heq, not_isGap_quote] at hxgap
      cases hxgap
    have hnext : ∀ c ∈ (form ++ quote single :: '\n' :: rest).head?, isGap c = false := by
      intro c hc
      cases form with
      | nil =>
        rw [← Option.some.inj hc]
        exact not_isGap_quote single
      | cons d form => exact hform c hc
    -- The gap has one character at least, so the fuel that is left suffices behind it.
    have hpositive := hgap.length_pos
    have hcolumn : k + (word.flatMap (spelling single)).length ≠ 0 := by omega
    obtain ⟨g, i', l', k', hk', hg, hscan⟩ := hgap.scan hnext tail.length
      (i + (word.flatMap (spelling single)).length) l hcolumn (by simp [tail])
    simp only [List.length_append] at hfuel
    obtain ⟨i'', l'', k'', hread⟩ := ih fuel i' l' hk' (by omega)
    refine ⟨i'', l'', k'', ?_⟩
    rw [List.append_assoc, List.append_assoc, quotedRest_word hword (.inl ⟨x, hhead, hxgap⟩) hk rfl,
      if_neg hopen, hscan, Option.bind_some, hread, hg]
    simp

theorem Spells.length_le (h : Spells single cs form) : cs.length ≤ form.length := by
  induction h with
  | word _ => exact length_le_spelled single _
  | @gap word gap spread more form _ hgap _ _ ih =>
    have hspread : gap.length ≤ spread.length := by
      cases hgap <;> simp
    have hlength := length_le_spelled single word
    simp only [List.length_append]
    omega

theorem Spells.quoted (h : Spells single cs form) (rest : List Char) (i l : Nat) (hk : k ≠ 0) :
    ∃ i' l' k', Token.quoted single ⟨form ++ quote single :: '\n' :: rest, i, l, k⟩
      = some (cs, ⟨'\n' :: rest, i', l', k'⟩) := by
  refine h.quotedRest rest _ i l hk ?_
  have hlength := h.length_le
  rw [List.length_append]
  omega

end Reading

/-! ### What is written between quotes -/

section Writing

variable {single : Bool} {cs front word gap more rest : List Char} {c x : Char}

theorem not_isGap_of_head?_spelling (hc : isSpelled single c = true)
    (hx : x ∈ (spelling single c ++ rest).head?) : isGap x = false := by
  cases single with
  | true =>
    simp only [isSpelled, if_true, Bool.and_eq_true, Bool.not_eq_true'] at hc
    have hhead : x = c := by
      rw [spelling, if_pos rfl] at hx
      split at hx <;> exact (Option.some.inj hx).symm
    rw [hhead]
    exact hc.2
  | false =>
    have hspace : c ≠ ' ' := by simpa [isSpelled] using hc
    rw [spelling, if_neg Bool.false_ne_true] at hx
    split at hx
    · rw [← Option.some.inj hx]
      decide
    next hplain =>
      rw [← Option.some.inj hx]
      simp only [Bool.or_eq_true, Bool.not_eq_true', not_or, Bool.not_eq_true,
        Bool.not_eq_false] at hplain
      obtain ⟨⟨⟨hprintable, hbreak⟩, _⟩, _⟩ := hplain
      rw [isGap, hbreak, Bool.or_false, ← Bool.not_eq_true, isBlank_iff hprintable]
      exact hspace

theorem flatMap_spelling_spaces (hgap : ∀ c ∈ gap, c = ' ') :
    gap.flatMap (spelling single) = gap := by
  induction gap with
  | nil => rfl
  | cons c gap ih =>
    rw [List.forall_mem_cons] at hgap
    obtain ⟨rfl, hgap⟩ := hgap
    rw [List.flatMap_cons, ih hgap]
    cases single <;> rfl

/-- Between double quotes nothing but a space separates words. -/
theorem spells_quotes (cs : List Char) : Spells false cs (cs.flatMap (spelling false)) := by
  induction hlength : cs.length using Nat.strong_induction_on generalizing cs with
  | _ length ih =>
    obtain ⟨word, gap, more, rfl, hword, hgap, hmore, hnil⟩ := exists_run (· == ' ') cs
    have hspelled : ∀ c ∈ word, isSpelled false c = true := fun c hc => by
      simpa [isSpelled] using hword c hc
    have hspaces : ∀ c ∈ gap, c = ' ' := fun c hc => by simpa using hgap c hc
    by_cases hne : gap = []
    · rw [hne, hnil hne, List.append_nil, List.append_nil]
      exact .word hspelled
    · have hshorter : more.length < length := by
        have hpositive := List.length_pos_iff.2 hne
        simp only [List.length_append] at hlength
        omega
      rw [List.flatMap_append, List.flatMap_append, flatMap_spelling_spaces hspaces]
      refine .gap hspelled (.spaces hne hspaces) ?_ (ih _ hshorter more rfl)
      intro x hx
      cases more with
      | nil => cases hx
      | cons c more =>
        have hc : isSpelled false c = true := by simpa [isSpelled] using hmore c rfl
        exact not_isGap_of_head?_spelling hc hx

theorem withQuotes_eq (cs : List Char) :
    withQuotes cs = quote false :: cs.flatMap (spelling false) ++ [quote false] := by
  rfl

theorem hasPair_of_append {p q : Char → Bool} (h : hasPair p q (front ++ cs) = false) :
    hasPair p q cs = false := by
  induction front with
  | nil => exact h
  | cons a front ih =>
    refine ih ?_
    cases hrest : front ++ cs with
    | nil => rfl
    | cons b rest =>
      rw [List.cons_append, hrest, hasPair, Bool.or_eq_false_iff] at h
      exact h.2

/-- Between two words there are only spaces, or only line ends. -/
theorem spaces_or_breaks (hgap : ∀ c ∈ gap, c = ' ' ∨ isBreak c = true)
    (hspace : hasPair isSpace isBreak (gap ++ more) = false)
    (hbreak : hasPair isBreak isSpace (gap ++ more) = false) :
    (∀ c ∈ gap, c = ' ') ∨ ∀ c ∈ gap, isBreak c = true := by
  induction gap with
  | nil => exact .inl nofun
  | cons a gap ih =>
    rw [List.forall_mem_cons] at hgap
    obtain ⟨ha, hgap⟩ := hgap
    cases gap with
    | nil => simpa using ha
    | cons b gap =>
      rw [List.cons_append, List.cons_append, hasPair, Bool.or_eq_false_iff] at hspace hbreak
      rcases ih hgap hspace.2 hbreak.2 with hall | hall
      · refine .inl (List.forall_mem_cons.2 ⟨ha.resolve_right fun hbreak' => ?_, hall⟩)
        rw [hbreak', hall b List.mem_cons_self] at hbreak
        cases hbreak.1
      · refine .inr (List.forall_mem_cons.2 ⟨ha.resolve_left ?_, hall⟩)
        rintro rfl
        rw [hall b List.mem_cons_self] at hspace
        cases hspace.1

theorem apostropheBody_word (hword : ∀ c ∈ word, isBreak c = false) :
    apostropheBody false (word ++ rest)
      = word.flatMap (spelling true) ++ apostropheBody false rest := by
  induction word with
  | nil => rfl
  | cons c word ih =>
    rw [List.forall_mem_cons] at hword
    rw [List.cons_append, apostropheBody, hword.1, ih hword.2]
    simp [spelling]

theorem apostropheBody_breaks {afterBreak : Bool} (hgap : ∀ c ∈ x :: gap, isBreak c = true) :
    apostropheBody afterBreak (x :: gap ++ rest) = x :: gap ++ apostropheBody true rest := by
  induction gap generalizing afterBreak x with
  | nil =>
    rw [List.cons_append, apostropheBody, hgap x List.mem_cons_self]
    rfl
  | cons y gap ih =>
    rw [List.forall_mem_cons] at hgap
    rw [List.cons_append, apostropheBody, hgap.1, ih hgap.2]
    rfl

theorem apostropheBody_line (hmore : ∀ c ∈ more.head?, isBreak c = false) :
    apostropheBody true more = indentation ++ apostropheBody false more := by
  cases more with
  | nil => rfl
  | cons c more =>
    rw [apostropheBody, hmore c rfl]
    simp [apostropheBody, hmore c rfl]

theorem allowsApostrophes_iff : allowsApostrophes cs = true ↔ (∀ c ∈ cs, isPrintable c = true)
    ∧ hasPair isSpace isBreak cs = false ∧ hasPair isBreak isSpace cs = false := by
  simp [allowsApostrophes, needsEscapes, and_comm, and_assoc]

theorem allowsApostrophes_of_append (h : allowsApostrophes (front ++ cs) = true) :
    allowsApostrophes cs = true := by
  rw [allowsApostrophes_iff] at h ⊢
  exact ⟨fun c hc => h.1 c (List.mem_append_right _ hc), hasPair_of_append h.2.1,
    hasPair_of_append h.2.2⟩

theorem not_isGap_of_head?_apostropheBody (hmore : ∀ c ∈ more.head?, isGap c = false)
    (hprintable : ∀ c ∈ more, isPrintable c = true) :
    ∀ x ∈ (apostropheBody false more).head?, isGap x = false := by
  intro x hx
  cases more with
  | nil => cases hx
  | cons c more =>
    have hc : isGap c = false := hmore c rfl
    have hc' : isPrintable c = true := hprintable c List.mem_cons_self
    have hspelled : isSpelled true c = true := by simp [isSpelled, hc', hc]
    have hbreak : ∀ d ∈ [c], isBreak d = false := by
      simpa using (Bool.or_eq_false_iff.1 hc).2
    have hbody : apostropheBody false ([c] ++ more)
        = [c].flatMap (spelling true) ++ apostropheBody false more := apostropheBody_word hbreak
    rw [List.singleton_append, List.flatMap_singleton] at hbody
    rw [hbody] at hx
    exact not_isGap_of_head?_spelling hspelled hx

/-- The separators after a word are spaces, or line ends after which the text is indented. -/
theorem exists_spread (hne : gap ≠ []) (hfeed : '\n' ∉ gap) (hgap : ∀ c ∈ gap, isGap c = true)
    (hallowed : allowsApostrophes (gap ++ more) = true)
    (hmore : ∀ c ∈ more.head?, isGap c = false) : ∃ spread, Spreads gap spread
      ∧ apostropheBody false (gap ++ more) = spread ++ apostropheBody false more := by
  obtain ⟨hprintable, hspace, hbreak⟩ := allowsApostrophes_iff.1 hallowed
  have hkinds : ∀ c ∈ gap, c = ' ' ∨ isBreak c = true := by
    intro c hc
    have hgap' := hgap c hc
    rwa [isGap, Bool.or_eq_true, isBlank_iff (hprintable c (List.mem_append_left _ hc))] at hgap'
  rcases spaces_or_breaks hkinds hspace hbreak with hspaces | hbreaks
  · have hline : ∀ c ∈ gap, isBreak c = false := by
      intro c hc
      rw [hspaces c hc]
      rfl
    refine ⟨gap, .spaces hne hspaces, ?_⟩
    rw [apostropheBody_word hline, flatMap_spelling_spaces hspaces]
  · obtain ⟨x, gap, rfl⟩ := List.exists_cons_of_ne_nil hne
    have hfirst : x ≠ '\n' := by
      rintro rfl
      exact hfeed List.mem_cons_self
    have hboth : ∀ c ∈ x :: gap, isBreak c = true ∧ isPrintable c = true := fun c hc =>
      ⟨hbreaks c hc, hprintable c (List.mem_append_left _ hc)⟩
    have hline : ∀ c ∈ more.head?, isBreak c = false := fun c hc =>
      (Bool.or_eq_false_iff.1 (hmore c hc)).2
    refine ⟨x :: gap ++ indentation, .breaks hfirst hboth, ?_⟩
    rw [apostropheBody_breaks hbreaks, apostropheBody_line hline, List.append_assoc (x :: gap)]

/-- Between apostrophes spaces and the two separators separate words. -/
theorem spells_apostrophes (cs : List Char) (hallowed : allowsApostrophes cs = true)
    (hfeed : '\n' ∉ cs) : Spells true cs (apostropheBody false cs) := by
  induction hlength : cs.length using Nat.strong_induction_on generalizing cs with
  | _ length ih =>
    obtain ⟨word, gap, more, rfl, hword, hgap, hmore, hnil⟩ := exists_run isGap cs
    obtain ⟨hprintable, -, -⟩ := allowsApostrophes_iff.1 hallowed
    have hspelled : ∀ c ∈ word, isSpelled true c = true := by
      intro c hc
      have hc' : isPrintable c = true := hprintable c (List.mem_append_left _ hc)
      simp [isSpelled, hc', hword c hc]
    have hline : ∀ c ∈ word, isBreak c = false := by
      intro c hc
      exact (Bool.or_eq_false_iff.1 (hword c hc)).2
    rw [apostropheBody_word hline]
    by_cases hne : gap = []
    · rw [hne, hnil hne, List.append_nil]
      have hempty : apostropheBody false [] = [] := rfl
      rw [List.append_nil, hempty, List.append_nil]
      exact .word hspelled
    · have hshorter : more.length < length := by
        have hpositive := List.length_pos_iff.2 hne
        simp only [List.length_append] at hlength
        omega
      have hrest : allowsApostrophes (gap ++ more) = true := allowsApostrophes_of_append hallowed
      simp only [List.mem_append, not_or] at hfeed
      obtain ⟨spread, hspread, hbody⟩ := exists_spread hne hfeed.2.1 hgap hrest hmore
      have hnext : ∀ x ∈ (apostropheBody false more).head?, isGap x = false :=
        not_isGap_of_head?_apostropheBody hmore fun c hc => hprintable c (by simp [hc])
      rw [hbody]
      exact .gap hspelled hspread hnext
        (ih more.length hshorter more (allowsApostrophes_of_append hrest) hfeed.2.2 rfl)

end Writing

end ActionRegistry.Yaml
