import ActionRegistry.Proofs.Yaml.Digits
import ActionRegistry.Proofs.Yaml.Mapping
import ActionRegistry.Proofs.Yaml.Scan

/-!
# The token of a value that was written

A text is written in one of four forms, and a number in its digits. Each form is read as one scalar
that holds what was written, whatever line follows.
-/

namespace ActionRegistry.Yaml

open Writer

namespace Scanner

variable {rest form cs : List Char} {x : Char} {released i l k : Nat}

/-- A form is read as a token, from the space before it to the next line, which is empty or starts
with a key. -/
def ReadsAs (form : List Char) (token : Token) : Prop :=
  ∀ rest released i l k, k ≠ 0 → (∀ x ∈ rest.head?, isKeyChar x = true) →
    ∃ c allowsKey, BeforeLine rest c allowsKey
      ∧ (inMapping ⟨' ' :: form ++ lineEndAfter form ++ rest, i, l, k⟩ [] released false).fetch
        = some (inMapping c [token] released allowsKey)

theorem fetch_value (hx : startsToken x = true) :
    (inMapping ⟨' ' :: x :: rest, i, l, k⟩ [] released false).fetch
      = (inMapping ⟨x :: rest, i + 1, l, k + 1⟩ [] released false).readToken := by
  have hmargin : 1 ≤ (⟨x :: rest, i + 1, l, k + 1⟩ : Cursor).column + 1 := Nat.le_add_left _ _
  exact fetch_eq (s := inMapping ⟨' ' :: x :: rest, i, l, k⟩ [] released false) rfl rfl rfl
    (nextPlace_space hx) nofun hmargin

theorem lineEndAfter_append_singleton (hx : isBreak x = false) :
    lineEndAfter (cs ++ [x]) = ['\n'] := by
  simp [lineEndAfter, hx]

/-! ### Plain texts -/

theorem startsToken_of_startsMarkup {next : Option Char} (h : startsMarkup x next = false)
    (hgap : isGap x = false) (hprintable : isPrintable x = true) : startsToken x = true := by
  have hsign : x ≠ '#' := by
    rintro rfl
    exact absurd (List.mem_cons_self) (not_startsMarkup_iff.1 h).1
  have hmark : x ≠ '\uFEFF' := ne_of_class hprintable (by decide)
  simp [startsToken, hgap, hsign, hmark]

theorem startsMarkup_congr {next next' : Option Char} (h : endsWord next = endsWord next') :
    startsMarkup x next = startsMarkup x next' := by
  rw [startsMarkup, startsMarkup, h]

theorem readsAs_plain (h : IsPlain (x :: cs)) (hprintable : isPrintable x = true)
    (hx : startsMarkup x cs.head? = false) : ReadsAs (x :: cs) (.scalar (x :: cs) .plain) := by
  have hgap : isGap x = false := by
    rw [← Bool.not_eq_true]
    exact fun hgap => h.head x rfl (h.inLine x List.mem_cons_self hgap)
  have hlast : ((x :: cs).getLast?.any isBreak) = false := by
    obtain ⟨y, hy⟩ := Option.ne_none_iff_exists'.1 (mt List.getLast?_eq_none_iff.1 h.ne_nil)
    rw [hy, Option.any_some, ← Bool.not_eq_true]
    intro hbreak
    have hygap : isGap y = true := by simp [isGap, hbreak]
    exact h.last y hy (h.inLine y (List.mem_of_getLast? hy) hygap)
  intro rest released i l k hk hrest
  have hform : ' ' :: (x :: cs) ++ lineEndAfter (x :: cs) ++ rest
      = ' ' :: x :: (cs ++ '\n' :: rest) := by
    simp [lineEndAfter, hlast]
  have hstarts : startsMarkup x (cs ++ '\n' :: rest).head? = false := by
    rwa [startsMarkup_congr Token.endsWord_head?_append]
  let after : Cursor := ⟨rest, i + 1 + (x :: cs).length + 1, l + 1, 0⟩
  have hplain : Token.plain false 1 ⟨x :: (cs ++ '\n' :: rest), i + 1, l, k + 1⟩
      = some ⟨x :: cs, true, after⟩ :=
    Token.plain_eq h (fun y hy => not_isGap_of_isKeyChar (hrest y hy)) (Nat.succ_ne_zero k)
  refine ⟨after, true, .inl ⟨_, _, rfl, rfl⟩, ?_⟩
  rw [hform, fetch_value (startsToken_of_startsMarkup hx hgap hprintable),
    readToken_plain rfl rfl hstarts (Bool.or_eq_false_iff.1 hgap).1 (.inl (Nat.succ_ne_zero k)),
    atPlain, savePlace]
  simp [inMapping, inFlow, push, hplain]

/-! ### Quoted texts -/

def quotedStyle (single : Bool) : ScalarStyle := if single then .singleQuoted else .doubleQuoted

theorem readToken_quote {single : Bool} {s : Scanner}
    (hcursor : s.cursor = ⟨quote single :: rest, i, l, k⟩) :
    s.readToken = s.atWord fun c => (Token.quoted single (c.skip 1)).map fun tc =>
      (.scalar tc.1 (quotedStyle single), tc.2) := by
  cases single <;>
    simp [readToken, hcursor, Cursor.atMarker, quote, quotedStyle]

theorem readsAs_quoted {single : Bool} (h : Spells single cs form) :
    ReadsAs (quote single :: form ++ [quote single]) (.scalar cs (quotedStyle single)) := by
  have hbreak : isBreak (quote single) = false := by cases single <;> decide
  have hstarts : startsToken (quote single) = true := by cases single <;> decide
  intro rest released i l k hk hrest
  have hform : ' ' :: (quote single :: form ++ [quote single])
        ++ lineEndAfter (quote single :: form ++ [quote single]) ++ rest
      = ' ' :: quote single :: (form ++ quote single :: '\n' :: rest) := by
    rw [lineEndAfter_append_singleton hbreak]
    simp
  obtain ⟨i', l', k', hquoted⟩ := h.quoted rest (i + 1 + 1) l (Nat.succ_ne_zero (k + 1))
  refine ⟨_, false, .inr ⟨i', l', k', rfl, rfl⟩, ?_⟩
  rw [hform, fetch_value hstarts, readToken_quote rfl, atWord, savePlace]
  simp [inMapping, push, hquoted]

/-! ### Literal blocks -/

theorem readToken_bar {s : Scanner} (hcursor : s.cursor = ⟨'|' :: rest, i, l, k⟩)
    (houter : s.outerPlaces = []) : s.readToken = s.atBlockScalar .literal := by
  simp [readToken, hcursor, Cursor.atMarker, inFlow, houter]

theorem readsAs_block (hne : cs ≠ []) (hprintable : ∀ c ∈ cs, isPrintable c = true) :
    ReadsAs (asBlock cs) (.scalar cs .literal) := by
  intro rest released i l k hk hrest
  obtain ⟨i', l', hblock⟩ := Token.block_afterBar (i := i + 1 + 1) (l := l) (k := k + 1 + 1) hne
    hprintable fun y hy => not_isGap_of_isKeyChar (hrest y hy)
  have hform : ' ' :: asBlock cs ++ lineEndAfter (asBlock cs) ++ rest
      = ' ' :: '|' :: (Token.afterBar cs ++ rest) := by
    rw [List.cons_append, List.cons_append, Token.asBlock_lineEnd hne]
    rfl
  refine ⟨_, true, .inl ⟨i', l', rfl, rfl⟩, ?_⟩
  rw [hform, fetch_value (by decide), readToken_bar rfl rfl, atBlockScalar, dropPlace]
  simp [inMapping, push, hblock]

/-! ### Values -/

theorem isPrintable_of_allowsBlock (h : allowsBlock cs = true) :
    ∀ c ∈ cs, isPrintable c = true := by
  simp only [allowsBlock, needsEscapes, Bool.and_eq_true, Bool.not_eq_true',
    Bool.or_eq_false_iff, Bool.not_eq_false', List.all_eq_true] at h
  exact h.1.2

theorem isPrintable_of_allowsPlain (h : allowsPlain cs = true) :
    ∀ c ∈ cs, isPrintable c = true := by
  cases cs with
  | nil => nofun
  | cons x cs =>
    simp only [allowsPlain, Bool.and_eq_true] at h
    exact (allowsApostrophes_iff.1 h.1.1.1.1.1.1).1

theorem isPlain_of_allowsPlain (h : allowsPlain (x :: cs) = true) : IsPlain (x :: cs) := by
  simp only [allowsPlain, Bool.and_eq_true, Bool.not_eq_true'] at h
  obtain ⟨⟨⟨⟨⟨⟨happ, hbreak⟩, hspace⟩, hlast⟩, hstarts⟩, -⟩, hmarkup⟩ := h
  obtain ⟨hprintable, -, -⟩ := allowsApostrophes_iff.1 happ
  rw [List.any_eq_false] at hbreak
  refine ⟨nofun, ?_, ?_, ?_, ?_⟩
  · intro c hc hgap
    rw [isGap, Bool.or_eq_true, isBlank_iff (hprintable c hc)] at hgap
    exact hgap.resolve_right (hbreak c hc)
  · rintro c hc rfl
    cases Option.some.inj hc
    cases hspace
  · rintro c hc rfl
    rw [Option.mem_def.1 hc] at hlast
    cases hlast
  · have hsign : x ≠ '#' := by
      rintro rfl
      exact absurd (List.mem_cons_self) (not_startsMarkup_iff.1 hstarts).1
    have hcolon : (x == ':' && endsWord cs.head?) = false := by
      by_contra hcolon
      simp only [Bool.not_eq_false, Bool.and_eq_true, beq_iff_eq] at hcolon
      obtain ⟨rfl, hends⟩ := hcolon
      rw [(not_startsMarkup_iff.1 hstarts).2 (by decide)] at hends
      cases hends
    rw [hasMarkup, hcolon, hmarkup]
    simp [hsign]

theorem readsAs_of_allowsPlain (hne : cs ≠ []) (h : allowsPlain cs = true) :
    ReadsAs cs (.scalar cs .plain) := by
  obtain ⟨x, cs, rfl⟩ := List.exists_cons_of_ne_nil hne
  have hplain : IsPlain (x :: cs) := isPlain_of_allowsPlain h
  have hprintable : isPrintable x = true := isPrintable_of_allowsPlain h x List.mem_cons_self
  simp only [allowsPlain, Bool.and_eq_true, Bool.not_eq_true'] at h
  exact readsAs_plain hplain hprintable h.1.1.2

theorem readsAs_withApostrophes (h : allowsApostrophes cs = true) (hfeed : '\n' ∉ cs) :
    ReadsAs (withApostrophes cs) (.scalar cs .singleQuoted) := by
  have hspells : Spells true cs (apostropheBody false cs) := spells_apostrophes cs h hfeed
  have hform : withApostrophes cs = quote true :: apostropheBody false cs ++ [quote true] := rfl
  rw [hform]
  exact readsAs_quoted hspells

theorem readsAs_withQuotes (cs : List Char) :
    ReadsAs (withQuotes cs) (.scalar cs .doubleQuoted) := by
  rw [withQuotes_eq]
  exact readsAs_quoted (spells_quotes cs)

/-- A text is read back from the form in which it is written. An empty text is quoted, since it
would be nothing if it were plain. -/
theorem exists_readsAs_text (s : String) : ∃ style, ReadsAs (text s) (.scalar s.toList style) := by
  have hempty : isDisguised "" = true := by decide
  rw [text]
  split
  next hfeed =>
    have hne : s.toList ≠ [] := List.ne_nil_of_mem (List.contains_iff_mem.1 hfeed)
    split
    next hblock => exact ⟨_, readsAs_block hne (isPrintable_of_allowsBlock hblock)⟩
    next => exact ⟨_, readsAs_withQuotes s.toList⟩
  next hfeed =>
    split
    next hplain =>
      rw [Bool.and_eq_true, Bool.not_eq_true'] at hplain
      have hne : s.toList ≠ [] := by
        intro hnil
        rw [String.toList_eq_nil_iff.1 hnil, hempty] at hplain
        cases hplain.1
      exact ⟨_, readsAs_of_allowsPlain hne hplain.2⟩
    next =>
      split
      next happ => exact ⟨_, readsAs_withApostrophes happ (by simpa using hfeed)⟩
      next => exact ⟨_, readsAs_withQuotes s.toList⟩

/-! ### Numbers -/

theorem isAscii_of_isDigit (h : x.isDigit = true) : isAscii x = true := by
  simp only [Char.isDigit, Bool.and_eq_true, decide_eq_true_eq, UInt32.le_iff_toNat_le] at h
  change 48 ≤ x.toNat ∧ x.toNat ≤ 57 at h
  simp only [isAscii, Bool.and_eq_true, decide_eq_true_eq]
  omega

theorem readsAs_digits (hne : cs ≠ []) (h : ∀ c ∈ cs, c.isDigit = true) :
    ReadsAs cs (.scalar cs .plain) := by
  have hgap : ∀ c ∈ cs, isGap c = false := fun c hc =>
    not_isGap_of_isAscii (isAscii_of_isDigit (h c hc)) (ne_of_class (h c hc) (by decide))
  have hplain : IsPlain cs := .of_word hne fun c hc =>
    ⟨hgap c hc, ne_of_class (h c hc) (by decide), ne_of_class (h c hc) (by decide)⟩
  obtain ⟨x, cs, rfl⟩ := List.exists_cons_of_ne_nil hne
  have hx : x.isDigit = true := h x List.mem_cons_self
  exact readsAs_plain hplain (isPrintable_of_isAscii (isAscii_of_isDigit hx))
    (startsMarkup_of_class hx (by decide) _)

/-- A value is read as a scalar that stands for it. -/
theorem exists_readsAs (f : Field) : ∃ cs style, ReadsAs f.form (.scalar cs style)
    ∧ ∀ targets : Targets, targets.Stands (.scalar none none (String.ofList cs) style) f := by
  cases f with
  | text s =>
    obtain ⟨style, h⟩ := exists_readsAs_text s
    refine ⟨s.toList, style, h, fun targets => ⟨none, none, style, ?_⟩⟩
    rw [String.ofList_toList]
    rfl
  | number n =>
    have hdigits : ∀ c ∈ Nat.toDigits 10 n, c.isDigit = true := fun c => isDigit_of_mem_toDigits
    refine ⟨Nat.toDigits 10 n, .plain, readsAs_digits Nat.toDigits_ne_nil hdigits,
      fun targets => ?_⟩
    refine ⟨none, none, String.ofList (Nat.toDigits 10 n), .plain, rfl, .inl rfl, ?_⟩
    rw [String.toList_ofList, unsigned?_toDigits]

end Scanner

end ActionRegistry.Yaml
