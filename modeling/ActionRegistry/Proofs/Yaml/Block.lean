import Mathlib.Data.List.Induction
import ActionRegistry.Proofs.Yaml.Cursor

/-!
# Literal blocks that were written

The lines of a literal block are indented unless they are empty, and the next line that starts at
the margin ends it. Its header tells the depth where the first line would mislead, and what becomes
of the line ends after the last line: there is none, one that is kept, or several that are.
-/

namespace ActionRegistry.Yaml

open Writer

variable {cs line body breaks ends tail rest lineEnd empties : List Char} {x : Char}
  {afterBreak : Bool} {fuel widest i l k k' : Nat}

/-! ### The lines -/

theorem blockBody_line (hline : ∀ c ∈ line, isBreak c = false) :
    blockBody false (line ++ rest) = line ++ blockBody false rest := by
  induction line with
  | nil => rfl
  | cons c line ih =>
    rw [List.forall_mem_cons] at hline
    rw [List.cons_append, blockBody, hline.1, ih hline.2]
    rfl

theorem blockBody_breaks (hx : isBreak x = true) (hbreaks : ∀ c ∈ breaks, isBreak c = true) :
    blockBody afterBreak (x :: breaks ++ rest) = x :: breaks ++ blockBody true rest := by
  induction breaks generalizing x afterBreak with
  | nil =>
    rw [List.cons_append, blockBody, hx]
    rfl
  | cons y breaks ih =>
    rw [List.forall_mem_cons] at hbreaks
    rw [List.cons_append, blockBody, hx, ih hbreaks.1 hbreaks.2]
    rfl

theorem blockBody_indented (hne : cs ≠ []) (hcs : ∀ c ∈ cs.head?, isBreak c = false) :
    blockBody true cs = indentation ++ blockBody false cs := by
  obtain ⟨c, cs, rfl⟩ := List.exists_cons_of_ne_nil hne
  have hc : isBreak c = false := hcs c rfl
  simp [blockBody, hc]

theorem blockBody_ends (hends : ∀ c ∈ ends, isBreak c = true) :
    blockBody afterBreak (cs ++ ends) = blockBody afterBreak cs ++ ends := by
  induction cs generalizing afterBreak with
  | nil =>
    cases ends with
    | nil => rfl
    | cons x ends =>
      rw [List.forall_mem_cons] at hends
      have hbody : blockBody afterBreak (x :: ends ++ []) = x :: ends ++ blockBody true [] :=
        blockBody_breaks hends.1 hends.2
      rw [List.append_nil] at hbody
      rw [List.nil_append, hbody]
      cases afterBreak <;> simp [blockBody]
  | cons c cs ih =>
    rw [List.cons_append, blockBody, blockBody, ih, ih]
    split <;> simp

theorem exists_blockBody_concat (afterBreak : Bool) (cs : List Char) (x : Char) :
    ∃ before, blockBody afterBreak (cs ++ [x]) = before ++ [x] := by
  induction cs generalizing afterBreak with
  | nil =>
    rw [List.nil_append, blockBody]
    split
    · exact ⟨[], rfl⟩
    · exact ⟨if afterBreak then indentation else [], rfl⟩
  | cons c cs ih =>
    rw [List.cons_append, blockBody]
    split
    · obtain ⟨before, h⟩ := ih true
      exact ⟨c :: before, by rw [h, List.cons_append]⟩
    · obtain ⟨before, h⟩ := ih false
      exact ⟨(if afterBreak then indentation else []) ++ c :: before, by simp [h]⟩

theorem getLast?_blockBody (cs : List Char) : (blockBody afterBreak cs).getLast? = cs.getLast? := by
  obtain rfl | ⟨before, x, rfl⟩ := List.eq_nil_or_concat cs
  · cases afterBreak <;> rfl
  · obtain ⟨front, h⟩ := exists_blockBody_concat afterBreak before x
    rw [List.concat_eq_append, h, List.getLast?_concat, List.getLast?_concat]

theorem length_le_blockBody (afterBreak : Bool) (cs : List Char) :
    cs.length ≤ (blockBody afterBreak cs).length := by
  induction cs generalizing afterBreak with
  | nil => exact Nat.zero_le _
  | cons c cs ih =>
    rw [blockBody, List.length_cons]
    split
    · exact Nat.succ_le_succ (ih true)
    · have hcs := ih false
      rw [List.length_append, List.length_cons]
      omega

/-- The line end after what is written for a value, which a block may have already. -/
def lineEndAfter (form : List Char) : List Char := if form.getLast?.any isBreak then [] else ['\n']

theorem getLast?_asBlock (hne : cs ≠ []) : (asBlock cs).getLast? = cs.getLast? := by
  have hbody : (blockBody true cs).getLast? = cs.getLast? := getLast?_blockBody cs
  obtain ⟨before, x, rfl⟩ := (List.eq_nil_or_concat cs).resolve_left hne
  rw [asBlock, List.getLast?_append, List.getLast?_cons, hbody]
  simp

/-! ### Empty lines -/

namespace Token

/-- Before some text there is no empty line; the next line starts at a column. -/
def Stops (tail rest : List Char) (column : Nat) : Prop :=
  ∀ fuel widest i l, ∃ i' w', emptyLines 2 (fuel + 1) widest ⟨tail, i, l, 0⟩
    = some ([], w', ⟨rest, i', l, column⟩)

theorem stops_indented (hx : isBreak x = false) :
    Stops (indentation ++ x :: rest) (x :: rest) 2 := by
  intro fuel widest i l
  refine ⟨i + 2, max widest 2, ?_⟩
  have hspaces : min ((indentation ++ x :: rest).takeWhile (· == ' ')).length (2 - 0) = 2 := by
    simp [indentation]
  rw [emptyLines]
  simp only [hspaces]
  simp [indentation, Cursor.skip, hx]

theorem stops_margin (hrest : ∀ c ∈ rest.head?, isGap c = false) : Stops rest rest 0 := by
  intro fuel widest i l
  refine ⟨i, widest, ?_⟩
  cases rest with
  | nil => simp [emptyLines, Cursor.sees, Cursor.skip]
  | cons c rest =>
    have hc : isGap c = false := hrest c rfl
    simp [isGap, isBlank] at hc
    simp [emptyLines, Cursor.sees, Cursor.skip, hc]

theorem emptyLines_breaks {column : Nat} (hstops : Stops tail rest column)
    (hbreaks : ∀ c ∈ breaks, isBreak c = true ∧ isPrintable c = true) (fuel widest i l : Nat)
    (hfuel : breaks.length < fuel) :
    ∃ i' l' w', emptyLines 2 fuel widest ⟨breaks ++ tail, i, l, 0⟩
      = some (breaks, w', ⟨rest, i', l', column⟩) := by
  induction breaks generalizing fuel widest i l with
  | nil =>
    obtain ⟨fuel, rfl⟩ : ∃ n, fuel = n + 1 := ⟨fuel - 1, by simp at hfuel; omega⟩
    obtain ⟨i', w', h⟩ := hstops fuel widest i l
    exact ⟨i', l, w', h⟩
  | cons x breaks ih =>
    obtain ⟨⟨hbreak, hprintable⟩, hbreaks⟩ := List.forall_mem_cons.1 hbreaks
    rw [List.length_cons] at hfuel
    obtain ⟨fuel, rfl⟩ : ∃ n, fuel = n + 1 := ⟨fuel - 1, by omega⟩
    obtain ⟨i', l', w', h⟩ := ih hbreaks fuel (max widest 0) (i + 1) (l + 1) (by omega)
    refine ⟨i', l', w', ?_⟩
    have hspace : x ≠ ' ' := by
      rintro rfl
      cases hbreak
    have htab : x ≠ '\t' := ne_of_class hprintable (by decide)
    have hskip : ∀ rest, (⟨rest, i, l, 0⟩ : Cursor).skip 0 = ⟨rest, i, l, 0⟩ := fun _ => rfl
    rw [emptyLines]
    simp only [List.cons_append, List.takeWhile_cons, beq_iff_eq, hspace, if_false, List.length_nil,
      Nat.zero_min, hskip, Nat.reduceEqDiff, Cursor.sees, Cursor.peek_mk, List.head?_cons,
      Option.any_some, hbreak, if_true, Cursor.takeBreak_of_isPrintable hbreak hprintable, h]
    simp [htab]

/-! ### The end -/

/-- What becomes of the line ends at the end of a text that is no line end in all. -/
def chompingOf : List Char → Chomping
  | [] => .strip
  | [_] => .clip
  | _ => .keep

/-- The line ends after the last line as they are written. -/
def closing (ends : List Char) : List Char := if ends = [] then ['\n'] else ends

/-- What is kept of a line end and the empty lines after it. -/
def Chomping.kept (lineEnd empties : List Char) : Chomping → List Char
  | strip => []
  | clip => lineEnd
  | keep => lineEnd ++ empties

theorem blockLines_margin {chomping : Chomping} {blank : Bool} (h : k ≠ 2) :
    blockLines true chomping 2 (fuel + 1) lineEnd empties blank ⟨rest, i, l, k⟩
      = some (chomping.kept lineEnd empties, ⟨rest, i, l, k⟩) := by
  cases chomping <;> simp [blockLines, h, Chomping.kept]

/-- One line, with the line end and the empty lines after it. -/
theorem blockLines_line {column : Nat} (hline : ∀ c ∈ line, isBreak c = false)
    (hbreaks : ∀ c ∈ x :: breaks, isBreak c = true ∧ isPrintable c = true)
    (hstops : Stops tail rest column) (chomping : Chomping) (fuel : Nat)
    (lineEnd empties : List Char) (blank : Bool) (i l : Nat) :
    ∃ i' l' blank', blockLines true chomping 2 (fuel + 1) lineEnd empties blank
        ⟨line ++ (x :: breaks ++ tail), i, l, 2⟩
      = (blockLines true chomping 2 fuel [x] breaks blank' ⟨rest, i', l', column⟩).map
        fun tc => (lineEnd ++ empties ++ line ++ tc.1, tc.2) := by
  obtain ⟨⟨hbreak, hprintable⟩, hmore⟩ := List.forall_mem_cons.1 hbreaks
  have hnonempty : (line ++ x :: (breaks ++ tail)).isEmpty = false := by simp
  have htake : (⟨line ++ x :: (breaks ++ tail), i, l, 2⟩ : Cursor).takeWhile (fun c => !isBreak c)
      = (line, ⟨x :: (breaks ++ tail), i + line.length, l, 2 + line.length⟩) := by
    apply Cursor.takeWhile_append
    · intro c hc
      rw [hline c hc]
      rfl
    · intro c hc
      rw [← Option.some.inj hc, hbreak]
      rfl
  obtain ⟨i', l', w', hempty⟩ := emptyLines_breaks hstops hmore ((breaks ++ tail).length + 1) 0
    (i + line.length + 1) (l + 1) (by rw [List.length_append]; omega)
  refine ⟨i', l', (⟨line ++ x :: (breaks ++ tail), i, l, 2⟩ : Cursor).peek.any isBlank, ?_⟩
  rw [List.cons_append, blockLines.eq_def]
  simp only [hnonempty, htake, Cursor.takeBreak_of_isPrintable hbreak hprintable, hempty,
    Option.map_eq_bind]
  rfl

theorem exists_closing (hends : ∀ c ∈ ends, isBreak c = true ∧ isPrintable c = true) :
    ∃ x more, closing ends = x :: more
      ∧ (∀ c ∈ x :: more, isBreak c = true ∧ isPrintable c = true)
      ∧ (chompingOf ends).kept [x] more = ends := by
  have hfeed : isBreak '\n' = true ∧ isPrintable '\n' = true := by decide
  cases ends with
  | nil => exact ⟨'\n', [], rfl, List.forall_mem_singleton.2 hfeed, rfl⟩
  | cons x more => cases more with
    | nil => exact ⟨x, [], rfl, hends, rfl⟩
    | cons y more => exact ⟨x, y :: more, rfl, hends, rfl⟩

/-- Lines of text: neither the first nor the last one is empty, and all can be written. -/
structure IsBody (cs : List Char) : Prop where
  ne_nil : cs ≠ []
  first : ∀ c ∈ cs.head?, isBreak c = false
  last : ∀ c ∈ cs.getLast?, isBreak c = false
  printable : ∀ c ∈ cs, isPrintable c = true

/-- A body is one line, or a line before line ends and a body. -/
theorem IsBody.exists_lines (h : IsBody cs) : ∃ line breaks more, cs = line ++ (breaks ++ more)
    ∧ 0 < line.length ∧ (∀ c ∈ line, isBreak c = false)
    ∧ (∀ c ∈ breaks, isBreak c = true ∧ isPrintable c = true)
    ∧ (breaks = [] ∧ more = [] ∨ breaks ≠ [] ∧ IsBody more) := by
  obtain ⟨line, breaks, more, rfl, hline, hbreaks, hmore, hnil⟩ := exists_run isBreak cs
  have hpositive : 0 < line.length := by
    refine List.length_pos_iff.2 ?_
    rintro rfl
    cases breaks with
    | nil =>
      rw [hnil rfl] at h
      exact h.ne_nil rfl
    | cons x breaks =>
      have hx := h.first x rfl
      rw [hbreaks x List.mem_cons_self] at hx
      cases hx
  refine ⟨line, breaks, more, rfl, hpositive, hline,
    fun c hc => ⟨hbreaks c hc, h.printable c (by simp [hc])⟩, ?_⟩
  rcases List.eq_nil_or_concat breaks with rfl | ⟨before, x, rfl⟩
  · exact .inl ⟨rfl, hnil rfl⟩
  · have hmore' : more ≠ [] := by
      rintro rfl
      have hx := h.last x (by simp)
      rw [hbreaks x (by simp)] at hx
      cases hx
    refine .inr ⟨by simp, hmore', hmore, fun c hc => h.last c ?_, fun c hc => h.printable c ?_⟩
    · rw [← List.append_assoc, List.getLast?_append, Option.mem_def.1 hc]
      rfl
    · simp [hc]

/-- The lines of a literal block are read with the line ends that are kept. -/
theorem blockLines_body (h : IsBody body)
    (hends : ∀ c ∈ ends, isBreak c = true ∧ isPrintable c = true)
    (hrest : ∀ c ∈ rest.head?, isGap c = false) (fuel : Nat) (lineEnd empties : List Char)
    (blank : Bool) (i l : Nat) (hfuel : body.length < fuel) :
    ∃ i' l', blockLines true (chompingOf ends) 2 fuel lineEnd empties blank
        ⟨blockBody false body ++ (closing ends ++ rest), i, l, 2⟩
      = some (lineEnd ++ empties ++ body ++ ends, ⟨rest, i', l', 0⟩) := by
  induction fuel generalizing body lineEnd empties blank i l with
  | zero => omega
  | succ fuel ih =>
    obtain ⟨line, breaks, more, rfl, hpositive, hline, hbreaks, hend⟩ := h.exists_lines
    rw [blockBody_line hline, List.append_assoc]
    rcases hend with ⟨rfl, rfl⟩ | ⟨hne, hmore⟩
    · obtain ⟨x, more, hclosing, hall, hkept⟩ := exists_closing hends
      obtain ⟨i', l', blank', hread⟩ := blockLines_line hline hall (stops_margin hrest)
        (chompingOf ends) fuel lineEnd empties blank i l
      obtain ⟨fuel, rfl⟩ : ∃ n, fuel = n + 1 := ⟨fuel - 1, by simp at hfuel; omega⟩
      rw [blockLines_margin (k := 0) (by omega), hkept] at hread
      refine ⟨i', l', ?_⟩
      rw [hclosing]
      simpa [blockBody] using hread
    · obtain ⟨x, breaks, rfl⟩ := List.exists_cons_of_ne_nil hne
      obtain ⟨c, more, rfl⟩ := List.exists_cons_of_ne_nil hmore.ne_nil
      have hc : isBreak c = false := hmore.first c rfl
      have hbody : blockBody false (c :: more) = c :: blockBody false more := by
        simp [blockBody, hc]
      have hstops : Stops
          (indentation ++ c :: (blockBody false more ++ (closing ends ++ rest)))
          (c :: (blockBody false more ++ (closing ends ++ rest))) 2 := stops_indented hc
      obtain ⟨i', l', blank', hread⟩ := blockLines_line hline hbreaks hstops (chompingOf ends) fuel
        lineEnd empties blank i l
      obtain ⟨i'', l'', hrec⟩ := ih hmore [x] breaks blank' i' l' (by simp at hfuel ⊢; omega)
      rw [hbody, List.cons_append] at hrec
      refine ⟨i'', l'', ?_⟩
      rw [blockBody_breaks (hbreaks x List.mem_cons_self).1
        (fun c hc => (hbreaks c (List.mem_cons_of_mem _ hc)).1),
        blockBody_indented (List.cons_ne_nil c more) hmore.first, hbody]
      rw [hrec] at hread
      simpa using hread

/-! ### The header -/

def Chomping.hint : Chomping → List Char
  | strip => ['-']
  | clip => []
  | keep => ['+']

def depthHint (told : Bool) : List Char := if told then ['2'] else []

theorem blockHeader_eq (told : Bool) (chomping : Chomping) (tail : List Char) (i l k : Nat) :
    ∃ i' k', blockHeader ⟨depthHint told ++ chomping.hint ++ '\n' :: tail, i, l, k⟩
      = some (chomping, if told then 2 else 0, ⟨'\n' :: tail, i', l, k'⟩) := by
  cases told <;> cases chomping <;> exact ⟨_, _, rfl⟩

/-- After its header a block is read at the depth of two, which is told or found. -/
theorem block_of_emptyLines {told : Bool} (chomping : Chomping) (i l k : Nat)
    (h : ∀ i l, ∃ i' l' w', emptyLines (if told then 2 else 0) (tail.length + 1) 0 ⟨tail, i, l, 0⟩
      = some (empties, w', ⟨rest, i', l', k'⟩) ∧ (told = true ∨ w' = 2)) :
    ∃ i' l', block true 1 ⟨depthHint told ++ chomping.hint ++ '\n' :: tail, i, l, k⟩
      = blockLines true chomping 2 (rest.length + 1) [] empties false ⟨rest, i', l', k'⟩ := by
  obtain ⟨ih, kh, hheader⟩ := blockHeader_eq told chomping tail i l k
  obtain ⟨i', l', w', hempty, hdepth⟩ := h (ih + 1) (l + 1)
  refine ⟨i', l', ?_⟩
  have hline : (⟨'\n' :: tail, ih, l, kh⟩ : Cursor).skipRestOfLine
      = some ⟨tail, ih + 1, l + 1, 0⟩ := rfl
  rw [block, hheader]
  cases told with
  | true =>
    simp only [if_true] at hempty
    simp [hline, hempty]
  | false =>
    obtain rfl : w' = 2 := by simpa using hdepth
    simp only [Bool.false_eq_true, if_false] at hempty
    simp [hline, hempty]

/-! ### The whole block -/

/-- The line ends at the end of a text, and what is before them. -/
theorem exists_ends (cs : List Char) : ∃ front ends, cs = front ++ ends
    ∧ (∀ c ∈ ends, isBreak c = true) ∧ ∀ c ∈ front.getLast?, isBreak c = false := by
  induction cs using List.reverseRecOn with
  | nil => exact ⟨[], [], rfl, nofun, nofun⟩
  | append_singleton cs x ih =>
    cases hx : isBreak x with
    | true =>
      obtain ⟨front, ends, rfl, hends, hfront⟩ := ih
      refine ⟨front, ends ++ [x], List.append_assoc .., ?_, hfront⟩
      intro c hc
      rcases List.mem_append.1 hc with hc | hc
      · exact hends c hc
      · rw [List.mem_singleton.1 hc, hx]
    | false =>
      refine ⟨cs ++ [x], [], (List.append_nil _).symm, nofun, ?_⟩
      intro c hc
      rw [List.getLast?_concat] at hc
      rw [← Option.some.inj hc, hx]

/-- A text is line ends alone, or a body between line ends. -/
theorem exists_body (hprintable : ∀ c ∈ cs, isPrintable c = true) : (∀ c ∈ cs, isBreak c = true)
    ∨ ∃ before body ends, cs = before ++ (body ++ ends) ∧ (∀ c ∈ before, isBreak c = true)
      ∧ IsBody body ∧ ∀ c ∈ ends, isBreak c = true := by
  obtain ⟨before, text, more, rfl, hbefore, htext, _, hnil⟩ := exists_run (fun c => !isBreak c) cs
  have hbefore : ∀ c ∈ before, isBreak c = true := fun c hc => by simpa using hbefore c hc
  by_cases hne : text = []
  · rw [hne, hnil hne, List.append_nil, List.append_nil]
    exact .inl hbefore
  · right
    obtain ⟨front, ends, hsplit, hends, hlast⟩ := exists_ends (text ++ more)
    obtain ⟨x, text, rfl⟩ := List.exists_cons_of_ne_nil hne
    have hx : isBreak x = false := by simpa using htext x List.mem_cons_self
    cases front with
    | nil =>
      rw [hends x (by rw [← List.nil_append ends, ← hsplit]; simp)] at hx
      cases hx
    | cons y front =>
      obtain rfl : x = y := (List.cons.inj hsplit).1
      rw [hsplit]
      refine ⟨before, x :: front, ends, rfl, hbefore, ⟨by simp, ?_, hlast, fun c hc => ?_⟩, hends⟩
      · intro c hc
        rw [← Option.some.inj hc, hx]
      · refine hprintable c (List.mem_append_right _ ?_)
        rw [hsplit]
        exact List.mem_append_left _ hc

theorem chompingHint_concat (cs : List Char) (x : Char) : chompingHint (cs ++ [x])
    = if isBreak x then (if cs.getLast?.all isBreak then ['+'] else []) else ['-'] := by
  rw [chompingHint, List.reverse_append, List.reverse_singleton, List.singleton_append]
  cases h : isBreak x <;> simp [h]

theorem chompingHint_of_breaks (hne : cs ≠ []) (h : ∀ c ∈ cs, isBreak c = true) :
    chompingHint cs = Chomping.keep.hint := by
  obtain rfl | ⟨before, x, rfl⟩ := List.eq_nil_or_concat cs
  · exact absurd rfl hne
  · have hlast : before.getLast?.all isBreak = true := by
      rw [Option.all_eq_true]
      exact fun c hc => h c (by simp [List.mem_of_getLast? hc])
    rw [List.concat_eq_append, chompingHint_concat, h x (by simp), hlast]
    rfl

theorem chompingHint_append {front : List Char} (hne : front ≠ [])
    (hfront : ∀ c ∈ front.getLast?, isBreak c = false) (hends : ∀ c ∈ ends, isBreak c = true) :
    chompingHint (front ++ ends) = (chompingOf ends).hint := by
  obtain ⟨before, z, rfl⟩ := (List.eq_nil_or_concat front).resolve_left hne
  have hz : isBreak z = false := hfront z (by simp)
  rw [List.concat_eq_append]
  obtain rfl | ⟨ends, x, rfl⟩ := List.eq_nil_or_concat ends
  · rw [List.append_nil, chompingHint_concat, hz]
    rfl
  · rw [List.concat_eq_append, ← List.append_assoc, chompingHint_concat, hends x (by simp)]
    cases ends using List.reverseRecOn with
    | nil => simp [hz, chompingOf, Chomping.hint]
    | append_singleton ends y =>
      have hy : isBreak y = true := hends y (by simp)
      have hmany : chompingOf (ends ++ [y] ++ [x]) = .keep := by
        cases ends with
        | nil => rfl
        | cons w ends => cases ends <;> rfl
      rw [hmany, ← List.append_assoc, List.getLast?_concat]
      simp [hy, Chomping.hint]

/-- Without a depth that is told, the depth is that of the first line. -/
theorem emptyLines_unknown (hbreak : isBreak x = false) (hspace : x ≠ ' ') (htab : x ≠ '\t') :
    emptyLines 0 (fuel + 1) 0 ⟨indentation ++ x :: rest, i, l, 0⟩
      = some ([], 2, ⟨x :: rest, i + 2, l, 2⟩) := by
  have hspaces : ((indentation ++ x :: rest).takeWhile (· == ' ')).length = 2 := by
    simp [indentation, hspace]
  rw [emptyLines]
  simp only [hspaces]
  simp [indentation, Cursor.skip, Cursor.sees, hbreak, htab]

theorem block_of_breaks (hbreaks : ∀ c ∈ cs, isBreak c = true ∧ isPrintable c = true)
    (hrest : ∀ c ∈ rest.head?, isGap c = false) :
    ∃ i' l', block true 1
        ⟨depthHint true ++ Chomping.keep.hint ++ '\n' :: (cs ++ rest), i, l, k⟩
      = some (cs, ⟨rest, i', l', 0⟩) := by
  have hempty : ∀ i l, ∃ i' l' w', emptyLines (if true then 2 else 0) ((cs ++ rest).length + 1) 0
      ⟨cs ++ rest, i, l, 0⟩ = some (cs, w', ⟨rest, i', l', 0⟩) ∧ (true = true ∨ w' = 2) := by
    intro i l
    obtain ⟨i', l', w', h⟩ := emptyLines_breaks (stops_margin hrest) hbreaks
      ((cs ++ rest).length + 1) 0 i l (by rw [List.length_append]; omega)
    exact ⟨i', l', w', h, .inl rfl⟩
  obtain ⟨i', l', hblock⟩ := block_of_emptyLines .keep i l k hempty
  refine ⟨i', l', ?_⟩
  rw [hblock, blockLines_margin (by omega)]
  rfl

theorem block_of_body {before : List Char} {told : Bool}
    (hbefore : ∀ c ∈ before, isBreak c = true ∧ isPrintable c = true) (hbody : IsBody body)
    (hends : ∀ c ∈ ends, isBreak c = true ∧ isPrintable c = true)
    (htold : told = true ∨ before = [] ∧ ∀ c ∈ body.head?, c ≠ ' ')
    (hrest : ∀ c ∈ rest.head?, isGap c = false) :
    ∃ i' l', block true 1 ⟨depthHint told ++ (chompingOf ends).hint ++ '\n' :: (before
        ++ (indentation ++ (blockBody false body ++ (closing ends ++ rest)))), i, l, k⟩
      = some (before ++ (body ++ ends), ⟨rest, i', l', 0⟩) := by
  obtain ⟨x, more, rfl⟩ := List.exists_cons_of_ne_nil hbody.ne_nil
  have hx : isBreak x = false := hbody.first x rfl
  have hform : blockBody false (x :: more) = x :: blockBody false more := by
    simp [blockBody, hx]
  let lines := blockBody false (x :: more) ++ (closing ends ++ rest)
  let tail := blockBody false more ++ (closing ends ++ rest)
  have hlines : lines = x :: tail := congrArg (· ++ (closing ends ++ rest)) hform
  have hempty : ∀ i l, ∃ i' l' w', emptyLines (if told then 2 else 0)
      ((before ++ (indentation ++ lines)).length + 1) 0 ⟨before ++ (indentation ++ lines), i, l, 0⟩
        = some (before, w', ⟨lines, i', l', 2⟩) ∧ (told = true ∨ w' = 2) := by
    intro i l
    rw [hlines]
    cases told with
    | true =>
      obtain ⟨i', l', w', h⟩ := emptyLines_breaks (stops_indented hx) hbefore
        ((before ++ (indentation ++ x :: tail)).length + 1) 0 i l
        (by rw [List.length_append]; omega)
      exact ⟨i', l', w', h, .inl rfl⟩
    | false =>
      obtain ⟨rfl, hspace⟩ := htold.resolve_left Bool.false_ne_true
      have htab : x ≠ '\t' := ne_of_class (hbody.printable x List.mem_cons_self) (by decide)
      exact ⟨_, _, _, emptyLines_unknown hx (hspace x rfl) htab, .inr rfl⟩
  obtain ⟨i', l', hblock⟩ := block_of_emptyLines (chompingOf ends) i l k hempty
  have hfuel : (x :: more).length < lines.length + 1 := by
    have hbodyLength := length_le_blockBody false (x :: more)
    simp only [lines, List.length_append]
    omega
  obtain ⟨i'', l'', hread⟩ := blockLines_body hbody hends hrest (lines.length + 1) [] before false
    i' l' hfuel
  refine ⟨i'', l'', ?_⟩
  rw [hblock]
  simpa using hread

/-! ### Blocks that were written -/

def tellsDepth (cs : List Char) : Bool := cs.head?.any fun c => isSpace c || isBreak c

/-- What is written for a text after the bar, with the line end after it. -/
def afterBar (cs : List Char) : List Char :=
  depthHint (tellsDepth cs) ++ chompingHint cs ++ '\n' :: (blockBody true cs ++ lineEndAfter cs)

theorem asBlock_lineEnd (hne : cs ≠ []) :
    asBlock cs ++ lineEndAfter (asBlock cs) = '|' :: afterBar cs := by
  have hend : lineEndAfter (asBlock cs) = lineEndAfter cs := by
    rw [lineEndAfter, getLast?_asBlock hne, lineEndAfter]
  rw [hend, asBlock]
  simp only [afterBar, List.cons_append, List.append_assoc]
  rfl

theorem block_afterBar_breaks (hne : cs ≠ [])
    (hbreaks : ∀ c ∈ cs, isBreak c = true ∧ isPrintable c = true)
    (hrest : ∀ c ∈ rest.head?, isGap c = false) :
    ∃ i' l', block true 1 ⟨afterBar cs ++ rest, i, l, k⟩ = some (cs, ⟨rest, i', l', 0⟩) := by
  have hall : ∀ c ∈ cs, isBreak c = true := fun c hc => (hbreaks c hc).1
  have hhint : chompingHint cs = Chomping.keep.hint := chompingHint_of_breaks hne hall
  have hbody : blockBody true ([] ++ cs) = blockBody true [] ++ cs := blockBody_ends hall
  have hend : lineEndAfter cs = [] := by
    obtain ⟨c, hc⟩ := Option.ne_none_iff_exists'.1 (mt List.getLast?_eq_none_iff.1 hne)
    rw [lineEndAfter, hc, Option.any_some, hall c (List.mem_of_getLast? hc), if_pos rfl]
  have htold : tellsDepth cs = true := by
    obtain ⟨x, more, rfl⟩ := List.exists_cons_of_ne_nil hne
    simp [tellsDepth, hall x List.mem_cons_self]
  rw [List.nil_append] at hbody
  rw [afterBar, hhint, hbody, hend, htold, List.append_nil, List.append_assoc, List.cons_append]
  exact block_of_breaks hbreaks hrest

section Body

variable {before : List Char}

theorem blockBody_between (hbefore : ∀ c ∈ before, isBreak c = true) (hbody : IsBody body)
    (hends : ∀ c ∈ ends, isBreak c = true) :
    blockBody true (before ++ (body ++ ends))
      = before ++ (indentation ++ (blockBody false body ++ ends)) := by
  have hindented : blockBody true body = indentation ++ blockBody false body :=
    blockBody_indented hbody.ne_nil hbody.first
  rw [← List.append_assoc, blockBody_ends hends]
  cases before with
  | nil => rw [List.nil_append, hindented, List.nil_append, List.append_assoc]
  | cons x before =>
    rw [blockBody_breaks (hbefore x List.mem_cons_self)
      fun c hc => hbefore c (List.mem_cons_of_mem _ hc), hindented]
    simp

/-- The line ends after the last line are those of the text, or the one that is put there. -/
theorem ends_lineEndAfter {front : List Char} (hne : front ≠ [])
    (hfront : ∀ c ∈ front.getLast?, isBreak c = false) (hends : ∀ c ∈ ends, isBreak c = true) :
    ends ++ lineEndAfter (front ++ ends) = closing ends := by
  obtain rfl | ⟨more, x, rfl⟩ := List.eq_nil_or_concat ends
  · obtain ⟨c, hc⟩ := Option.ne_none_iff_exists'.1 (mt List.getLast?_eq_none_iff.1 hne)
    rw [List.append_nil, lineEndAfter, hc, Option.any_some, hfront c hc]
    rfl
  · have hx : isBreak x = true := hends x (by simp)
    simp [lineEndAfter, closing, hx]

/-- The depth is told unless a line that starts with no space comes first. -/
theorem tellsDepth_or (hbefore : ∀ c ∈ before, isBreak c = true) (hbody : IsBody body) :
    tellsDepth (before ++ (body ++ ends)) = true ∨ before = [] ∧ ∀ c ∈ body.head?, c ≠ ' ' := by
  cases before with
  | cons x before =>
    left
    simp [tellsDepth, hbefore x List.mem_cons_self]
  | nil =>
    obtain ⟨x, body, rfl⟩ := List.exists_cons_of_ne_nil hbody.ne_nil
    by_cases hx : x = ' '
    · left
      simp [tellsDepth, hx, isSpace]
    · exact .inr ⟨rfl, fun c hc => Option.some.inj hc ▸ hx⟩

theorem block_afterBar_body (hbefore : ∀ c ∈ before, isBreak c = true ∧ isPrintable c = true)
    (hbody : IsBody body) (hends : ∀ c ∈ ends, isBreak c = true ∧ isPrintable c = true)
    (hrest : ∀ c ∈ rest.head?, isGap c = false) :
    ∃ i' l', block true 1 ⟨afterBar (before ++ (body ++ ends)) ++ rest, i, l, k⟩
      = some (before ++ (body ++ ends), ⟨rest, i', l', 0⟩) := by
  have hbefore' : ∀ c ∈ before, isBreak c = true := fun c hc => (hbefore c hc).1
  have hends' : ∀ c ∈ ends, isBreak c = true := fun c hc => (hends c hc).1
  have hfront : before ++ body ≠ [] := by simp [hbody.ne_nil]
  have hlast : ∀ c ∈ (before ++ body).getLast?, isBreak c = false := by
    rw [List.getLast?_append_of_ne_nil _ hbody.ne_nil]
    exact hbody.last
  have hhint : chompingHint (before ++ (body ++ ends)) = (chompingOf ends).hint := by
    rw [← List.append_assoc]
    exact chompingHint_append hfront hlast hends'
  have hclosing : ends ++ lineEndAfter (before ++ (body ++ ends)) = closing ends := by
    rw [← List.append_assoc]
    exact ends_lineEndAfter hfront hlast hends'
  have htold : tellsDepth (before ++ (body ++ ends)) = true
      ∨ before = [] ∧ ∀ c ∈ body.head?, c ≠ ' ' := tellsDepth_or hbefore' hbody
  obtain ⟨i', l', hblock⟩ :=
    block_of_body (i := i) (l := l) (k := k) hbefore hbody hends htold hrest
  refine ⟨i', l', ?_⟩
  rw [afterBar, hhint, blockBody_between hbefore' hbody hends', ← hblock, ← hclosing]
  simp

end Body

/-- A literal block is read as the text it was written for, up to the start of the next line. -/
theorem block_afterBar (hne : cs ≠ []) (hprintable : ∀ c ∈ cs, isPrintable c = true)
    (hrest : ∀ c ∈ rest.head?, isGap c = false) :
    ∃ i' l', block true 1 ⟨afterBar cs ++ rest, i, l, k⟩ = some (cs, ⟨rest, i', l', 0⟩) := by
  rcases exists_body hprintable with hbreaks | ⟨before, body, ends, rfl, hbefore, hbody, hends⟩
  · exact block_afterBar_breaks hne (fun c hc => ⟨hbreaks c hc, hprintable c hc⟩) hrest
  · exact block_afterBar_body (fun c hc => ⟨hbefore c hc, hprintable c (by simp [hc])⟩) hbody
      (fun c hc => ⟨hends c hc, hprintable c (by simp [hc])⟩) hrest

end Token

end ActionRegistry.Yaml
