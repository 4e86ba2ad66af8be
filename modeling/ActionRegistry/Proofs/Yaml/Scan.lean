import ActionRegistry.Proofs.Yaml.Block
import ActionRegistry.Proofs.Yaml.Plain
import ActionRegistry.Proofs.Yaml.Quoted

/-!
# The tokens of a mapping that was written

Each entry of a mapping starts at the margin with its key, and its value ends before the next line.
So the scanner goes from line to line: from the start of a line it reads the key, the colon and the
value, and is then before the start of the next line, outside of all keys.
-/

namespace ActionRegistry.Yaml

open Writer

namespace Scanner

variable {rest name : List Char} {c : Cursor} {x : Char} {inFlow isFirst allowsKey : Bool}
  {fuel released i l k : Nat}

/-! ### Between tokens -/

/-- The characters that may start a token, other than a comment. -/
def startsToken (x : Char) : Bool := !(isGap x || x == '#' || x == '\uFEFF')

theorem nextPlace_of_starts (h : ∀ x ∈ rest.head?, startsToken x = true) :
    nextPlace inFlow (fuel + 1) allowsKey ⟨rest, i, l, k⟩ = (⟨rest, i, l, k⟩, allowsKey) := by
  cases rest with
  | nil => simp [nextPlace, Cursor.sees, Cursor.skipWhile, Cursor.skip]
  | cons x rest =>
    have hx := h x rfl
    simp only [startsToken, isGap, isBlank, Bool.not_eq_true', Bool.or_eq_false_iff,
      beq_eq_false_iff_ne] at hx
    obtain ⟨⟨⟨⟨hspace, htab⟩, hbreak⟩, hsign⟩, hmark⟩ := hx
    simp [nextPlace, Cursor.sees, Cursor.skipWhile, Cursor.skip, hspace, htab, hbreak, hsign, hmark]

theorem nextPlace_space (hx : startsToken x = true) :
    nextPlace inFlow (fuel + 1) allowsKey ⟨' ' :: x :: rest, i, l, k⟩
      = (⟨x :: rest, i + 1, l, k + 1⟩, allowsKey) := by
  simp only [startsToken, isGap, isBlank, Bool.not_eq_true', Bool.or_eq_false_iff,
    beq_eq_false_iff_ne] at hx
  obtain ⟨⟨⟨⟨hspace, htab⟩, hbreak⟩, hsign⟩, hmark⟩ := hx
  simp [nextPlace, Cursor.sees, Cursor.skipWhile, Cursor.skip, hspace, htab, hbreak, hsign]

theorem nextPlace_feed : nextPlace inFlow (fuel + 1) allowsKey ⟨'\n' :: rest, i, l, k⟩
    = nextPlace inFlow fuel (allowsKey || !inFlow) ⟨rest, i + 1, l + 1, 0⟩ := by
  have hbreak : isBreak '\n' = true := by decide
  have hafter : (⟨'\n' :: rest, i, l, k⟩ : Cursor).takeBreak.2 = ⟨rest, i + 1, l + 1, 0⟩ := rfl
  simp [nextPlace, Cursor.sees, Cursor.skipWhile, Cursor.skip, hbreak, hafter]

/-- A place from which the next token is at the start of a line: there, or before its line end where
no key may start. -/
def BeforeLine (rest : List Char) (c : Cursor) (allowsKey : Bool) : Prop :=
  (∃ i l, c = ⟨rest, i, l, 0⟩ ∧ allowsKey = true)
    ∨ ∃ i l k, c = ⟨'\n' :: rest, i, l, k⟩ ∧ allowsKey = false

theorem startsToken_of_isKeyChar (h : isKeyChar x = true) : startsToken x = true := by
  have hsign : x ≠ '#' := ne_of_class h (by decide)
  have hmark : x ≠ '\uFEFF' := ne_of_class h (by decide)
  simp [startsToken, not_isGap_of_isKeyChar h, hsign, hmark]

theorem BeforeLine.nextPlace_eq (h : BeforeLine rest c allowsKey)
    (hrest : ∀ x ∈ rest.head?, isKeyChar x = true) :
    ∃ i l, nextPlace false (c.rest.length + 1) allowsKey c = (⟨rest, i, l, 0⟩, true) := by
  have hstarts : ∀ x ∈ rest.head?, startsToken x = true := fun x hx =>
    startsToken_of_isKeyChar (hrest x hx)
  rcases h with ⟨i, l, rfl, rfl⟩ | ⟨i, l, k, rfl, rfl⟩
  · exact ⟨i, l, nextPlace_of_starts hstarts⟩
  · refine ⟨i + 1, l + 1, ?_⟩
    rw [List.length_cons, nextPlace_feed, Bool.not_false, Bool.or_true,
      nextPlace_of_starts hstarts]

/-! ### Plain tokens -/

/-- The marks that never start a plain text. -/
def marks : List Char :=
  ['#', ',', '[', ']', '\x7b', '\x7d', '&', '*', '!', '|', '>', '"', '%', '@', '\x27', '\x60']

/-- The marks that start a plain text only within a word. -/
def wordMarks : List Char := ['?', ':', '-']

theorem startsMarkup_iff {next : Option Char} :
    startsMarkup x next = true ↔ x ∈ marks ∨ (x ∈ wordMarks ∧ endsWord next = true) := by
  have hlist : "#,[]\x7b\x7d&*!|>\"%@".toList ++ ['\x27', '\x60'] = marks := by decide
  rw [← hlist]
  simp [startsMarkup, wordMarks, or_assoc]

theorem isIndicator_iff : isIndicator x = true ↔ x ∈ marks ∨ x ∈ wordMarks := by
  let indicators := "-?:,[]\x7b\x7d#&*!|>\"%@".toList ++ ['\x27', '\x60']
  have hto : indicators.all (marks ++ wordMarks).contains = true := by decide
  have hof : (marks ++ wordMarks).all indicators.contains = true := by decide
  have hindicator : isIndicator x = true ↔ x ∈ indicators := by
    simp only [isIndicator, indicators, List.contains_eq_mem, Bool.or_eq_true, decide_eq_true_eq,
      beq_iff_eq, List.mem_append, List.mem_cons, List.not_mem_nil, or_false, or_assoc]
  rw [hindicator, ← List.mem_append]
  exact ⟨fun h => List.contains_iff_mem.1 (List.all_eq_true.1 hto x h),
    fun h => List.contains_iff_mem.1 (List.all_eq_true.1 hof x h)⟩

theorem not_startsMarkup_iff {next : Option Char} : startsMarkup x next = false
    ↔ x ∉ marks ∧ (x ∈ wordMarks → endsWord next = false) := by
  rw [← Bool.not_eq_true, startsMarkup_iff, not_or, not_and, Bool.not_eq_true]

theorem startsMarkup_of_class {p : Char → Bool} (h : p x = true)
    (hmarks : (marks ++ wordMarks).any p = false) (next : Option Char) :
    startsMarkup x next = false := by
  have hnot : x ∉ marks ++ wordMarks := fun hm => List.any_eq_false.1 hmarks x hm h
  rw [List.mem_append, not_or] at hnot
  exact not_startsMarkup_iff.2 ⟨hnot.1, fun hm => absurd hm hnot.2⟩

theorem startsPlain_of_startsMarkup {next : Option Char} (h : startsMarkup x next = false)
    (hblank : isBlank x = false) : startsPlain false x next = true := by
  obtain ⟨hmark, hword⟩ := not_startsMarkup_iff.1 h
  by_cases hx : x ∈ wordMarks
  · have hnext : endsWord next = false := hword hx
    have hblank' : next.any isBlank = false := by
      cases next with
      | none => rfl
      | some c => exact (Bool.or_eq_false_iff.1 hnext).1
    simp only [wordMarks, List.mem_cons, List.not_mem_nil, or_false] at hx
    rcases hx with rfl | rfl | rfl <;> simp [startsPlain, hnext, hblank']
  · have hindicator : isIndicator x = false := by
      rw [← Bool.not_eq_true, isIndicator_iff]
      exact not_or.2 ⟨hmark, hx⟩
    simp [startsPlain, hindicator, hblank]

/-- A plain text is read where it starts, but for the markers at the start of a line. -/
theorem readToken_plain {s : Scanner} (hcursor : s.cursor = ⟨x :: rest, i, l, k⟩)
    (houter : s.outerPlaces = []) (hx : startsMarkup x rest.head? = false)
    (hblank : isBlank x = false) (hcolumn : k ≠ 0 ∨ isKeyChar x = true) :
    s.readToken = s.atPlain := by
  obtain ⟨hnot, hends⟩ := not_startsMarkup_iff.1 hx
  have hmark : ∀ m ∈ marks, (x == m) = false := by
    intro m hm
    rw [beq_eq_false_iff_ne]
    rintro rfl
    exact hnot hm
  have hword : ∀ m ∈ wordMarks, (x == m && endsWord rest.head?) = false := by
    intro m hm
    by_cases heq : x = m
    · rw [hends (heq ▸ hm), Bool.and_false]
    · simp [heq]
  have hmarker : ∀ m, isKeyChar m = false → s.cursor.atMarker m = false := by
    intro m hm
    rw [hcursor]
    rcases hcolumn with hk | hkey
    · simp [Cursor.atMarker, hk]
    · simp [Cursor.atMarker, ne_of_class hkey hm]
  have hnext : s.cursor.peekAt 1 = rest.head? := by
    rw [hcursor]
    cases rest <;> rfl
  have hpeek : s.cursor.peek = some x := by rw [hcursor]; rfl
  have hflow : s.inFlow = false := by simp [inFlow, houter]
  rw [readToken]
  simp only [hpeek, hnext, hflow, hmarker '-' (by decide), hmarker '.' (by decide),
    hword '-' (by decide), hword '?' (by decide), hword ':' (by decide), Bool.false_or,
    hmark '%' (by decide), hmark '[' (by decide), hmark ']' (by decide), hmark '\x7b' (by decide),
    hmark '\x7d' (by decide), hmark ',' (by decide), hmark '*' (by decide), hmark '&' (by decide),
    hmark '!' (by decide), hmark '|' (by decide), hmark '>' (by decide), hmark '\x27' (by decide),
    hmark '"' (by decide), startsPlain_of_startsMarkup hx hblank, Bool.and_false, Bool.false_and,
    Bool.false_eq_true, if_false, if_true]

/-! ### Keys -/

/-- Keys of a mapping that was written. A longer key is not taken for one. -/
structure IsKey (name : List Char) : Prop where
  ne_nil : name ≠ []
  letters : ∀ c ∈ name, isKeyChar c = true
  short : name.length ≤ 1024

/-- The state before a line of a mapping, or before its first one. -/
def beforeLine (isFirst : Bool) (c : Cursor) (released : Nat) (allowsKey : Bool) : Scanner :=
  ⟨c, [], released, allowsKey, if isFirst then 0 else 1, if isFirst then [] else [0], none, []⟩

/-- The state after a key, before the colon. -/
def afterKey (isFirst : Bool) (name rest : List Char) (released i l : Nat) : Scanner :=
  ⟨⟨':' :: ' ' :: rest, i + name.length, l, name.length⟩, [.scalar name .plain], released, false,
    if isFirst then 0 else 1, if isFirst then [] else [0], some ⟨released, i, l, 0, !isFirst⟩, []⟩

def keyTokens (isFirst : Bool) (name : List Char) : List Token :=
  (if isFirst then [.blockMappingStart] else []) ++ [.key, .scalar name .plain, .value]

/-- A state inside of the mapping, with some tokens in the queue and no place for a key. -/
def inMapping (c : Cursor) (queue : List Token) (released : Nat) (allowsKey : Bool) : Scanner :=
  ⟨c, queue, released, allowsKey, 1, [0], none, []⟩

theorem leave_eq {margin current : Nat} (h : current ≤ margin) (outers : List Nat) :
    leave margin current outers = (current, outers, 0) := by
  cases outers with
  | nil => rfl
  | cons outer outers => rw [leave, if_neg (Nat.not_lt.2 h)]

theorem leaveBlocks_eq {s : Scanner} {margin : Nat} (h : s.margin ≤ margin) :
    s.leaveBlocks margin = s := by
  rw [leaveBlocks, leave_eq h]
  simp

theorem dropLapsed_eq {s : Scanner} (houter : s.outerPlaces = [])
    (hplace : ∀ p ∈ s.place, p.hasLapsed s.cursor = false) : s.dropLapsed = some s := by
  have hopen : stillOpen s.cursor s.place = some s.place := by
    cases hp : s.place with
    | none => rfl
    | some p => simp [stillOpen, hplace p hp]
  simp only [dropLapsed, hopen, houter, List.mapM_nil, Option.bind_eq_bind, Option.bind_some,
    Option.pure_def]
  rw [← houter]

/-- No block ends and no place lapses: then the next token is read at the next place. -/
theorem fetch_eq {s : Scanner} {c' : Cursor} {allowsKey' : Bool} (houter : s.outerPlaces = [])
    (hcursor : s.cursor = c) (hallows : s.allowsKey = allowsKey)
    (hplace : nextPlace false (c.rest.length + 1) allowsKey c = (c', allowsKey'))
    (hlapsed : ∀ p ∈ s.place, p.hasLapsed c' = false) (hmargin : s.margin ≤ c'.column + 1) :
    s.fetch = { s with cursor := c', allowsKey := allowsKey' }.readToken := by
  have hflow : s.inFlow = false := by simp [inFlow, houter]
  have hdrop : { s with cursor := c', allowsKey := allowsKey' }.dropLapsed
      = some { s with cursor := c', allowsKey := allowsKey' } := dropLapsed_eq houter hlapsed
  rw [fetch, hflow, hcursor, hallows, hplace]
  simp only [hdrop, Option.bind_eq_bind, Option.bind_some]
  rw [leaveBlocks_eq (s := { s with cursor := c', allowsKey := allowsKey' }) hmargin]

theorem atPlain_key (hname : IsKey name) :
    (beforeLine isFirst ⟨name ++ ':' :: ' ' :: rest, i, l, 0⟩ released true).atPlain
      = some (afterKey isFirst name rest released i l) := by
  have hplain : ∀ margin, Token.plain false margin ⟨name ++ ':' :: ' ' :: rest, i, l, 0⟩
      = some ⟨name, false, ⟨':' :: ' ' :: rest, i + name.length, l, 0 + name.length⟩⟩ := fun _ =>
    Token.plain_key hname.ne_nil hname.letters
  cases isFirst <;>
    simp [atPlain, savePlace, dropPlace, beforeLine, afterKey, inFlow, push, hplain]

theorem fetch_key (isFirst : Bool) (released : Nat) (hname : IsKey name)
    (h : BeforeLine (name ++ ':' :: ' ' :: rest) c allowsKey) :
    ∃ i l, (beforeLine isFirst c released allowsKey).fetch
      = some (afterKey isFirst name rest released i l) := by
  obtain ⟨x, more, hhead⟩ := List.exists_cons_of_ne_nil hname.ne_nil
  have hx : isKeyChar x = true := hname.letters x (hhead ▸ List.mem_cons_self)
  have hblank : isBlank x = false := (Bool.or_eq_false_iff.1 (not_isGap_of_isKeyChar hx)).1
  obtain ⟨i, l, hplace⟩ := h.nextPlace_eq fun y hy => by
    rw [hhead] at hy
    exact Option.some.inj hy ▸ hx
  have hmargin : (beforeLine isFirst c released allowsKey).margin ≤ 0 + 1 := by
    cases isFirst <;> simp [beforeLine]
  have hfetch := fetch_eq (s := beforeLine isFirst c released allowsKey) rfl rfl rfl hplace nofun
    hmargin
  have hread : (beforeLine isFirst ⟨name ++ ':' :: ' ' :: rest, i, l, 0⟩ released true).readToken
      = (beforeLine isFirst ⟨name ++ ':' :: ' ' :: rest, i, l, 0⟩ released true).atPlain := by
    subst hhead
    exact readToken_plain rfl rfl (startsMarkup_of_class hx (by decide) _) hblank (.inr hx)
  exact ⟨i, l, hfetch.trans (hread.trans (atPlain_key hname))⟩

theorem readToken_colon {s : Scanner} (hcursor : s.cursor = ⟨':' :: ' ' :: rest, i, l, k⟩) :
    s.readToken = s.atValue := by
  have hends : endsWord (some ' ') = true := by decide
  simp [readToken, hcursor, Cursor.atMarker, Cursor.peekAt, hends]

theorem atValue_afterKey :
    (afterKey isFirst name rest released i l).atValue
      = some (inMapping ⟨' ' :: rest, i + name.length + 1, l, name.length + 1⟩
        (keyTokens isFirst name) released false) := by
  cases isFirst <;>
    simp [atValue, afterKey, insertAt, enterBlock, inFlow, pushFor, push, inMapping, keyTokens]

/-- No more than a key is between its place and the colon. -/
theorem not_hasLapsed_afterKey (hname : IsKey name) :
    ∀ p ∈ (afterKey isFirst name rest released i l).place,
      p.hasLapsed (afterKey isFirst name rest released i l).cursor = false := by
  intro p hp
  rw [← Option.some.inj hp]
  have hshort : name.length ≤ 1024 := hname.short
  simp [KeyPlace.hasLapsed, afterKey]
  omega

theorem fetch_colon (hname : IsKey name) :
    (afterKey isFirst name rest released i l).fetch
      = some (inMapping ⟨' ' :: rest, i + name.length + 1, l, name.length + 1⟩
        (keyTokens isFirst name) released false) := by
  have hplace : nextPlace false ((':' :: ' ' :: rest).length + 1) false
      ⟨':' :: ' ' :: rest, i + name.length, l, name.length⟩
      = (⟨':' :: ' ' :: rest, i + name.length, l, name.length⟩, false) := by
    apply nextPlace_of_starts
    intro x hx
    rw [← Option.some.inj hx]
    decide
  have hmargin : (afterKey isFirst name rest released i l).margin ≤ name.length + 1 := by
    cases isFirst <;> simp [afterKey]
  have hfetch := fetch_eq (s := afterKey isFirst name rest released i l) rfl rfl rfl hplace
    (not_hasLapsed_afterKey hname) hmargin
  exact hfetch.trans ((readToken_colon rfl).trans atValue_afterKey)

end Scanner

end ActionRegistry.Yaml
