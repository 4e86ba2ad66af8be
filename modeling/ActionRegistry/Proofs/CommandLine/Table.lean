import Mathlib.Algebra.BigOperators.Group.Finset.Basic
import Mathlib.Data.List.FinRange
import Mathlib.Data.List.GetD
import Mathlib.Order.Bounds.Basic
import Mathlib.Order.Interval.Finset.Fin
import ActionRegistry.CommandLine.Execute
import ActionRegistry.Proofs.Manifest.Order
import ActionRegistry.Proofs.Registration.Consistency

/-!
# Reading tables

A line that goes on with spaces for ever has two spaces after every column, the last one too, so
that no column is special. Trimming the line does not change how it goes on: a cell does not end in
a blank character, so what is blank at the end was put there to fill a column or between two. Thus
each cell is where the widths of the columns before it tell, and can be read from there.
-/

namespace ActionRegistry.CommandLine.Table

open Text

/-! ### The blank end of a line -/

/-- A text in one line that does not end in a blank character. -/
structure IsLine (s : String) : Prop where
  single : '\n' ∉ s.toList
  last : ∀ c ∈ s.toList.getLast?, isBlank c = false

theorem isLine_iff {s : String} :
    IsLine s ↔ '\n' ∉ s.toList ∧ s.toList.getLast?.all (!isBlank ·) = true := by
  have hlast : s.toList.getLast?.all (!isBlank ·) = true
      ↔ ∀ c ∈ s.toList.getLast?, isBlank c = false := by
    cases s.toList.getLast? <;> simp
  rw [hlast]
  exact ⟨fun h => ⟨h.single, h.last⟩, fun h => ⟨h.1, h.2⟩⟩

instance (s : String) : Decidable (IsLine s) := decidable_of_iff' _ isLine_iff

theorem isLine_of_not_isBlank {s : String} (h : ∀ c ∈ s.toList, isBlank c = false) : IsLine s where
  single hmem := absurd (h '\n' hmem) (by decide)
  last c hc := h c (List.mem_of_getLast? hc)

def EndsInSpaces (cs : List Char) : Prop :=
  ∃ front k, cs = front ++ List.replicate k ' ' ∧ ∀ c ∈ front.getLast?, isBlank c = false

theorem endsInSpaces_replicate (k : Nat) : EndsInSpaces (List.replicate k ' ') :=
  ⟨[], k, rfl, nofun⟩

theorem EndsInSpaces.append {xs ys : List Char} (hxs : EndsInSpaces xs) (hys : EndsInSpaces ys) :
    EndsInSpaces (xs ++ ys) := by
  obtain ⟨front, k, rfl, hfront⟩ := hxs
  obtain ⟨front', k', rfl, hfront'⟩ := hys
  -- Nothing but spaces may be behind the first text, and then its own end is the end of both.
  cases hlast : front'.getLast? with
  | none =>
    obtain rfl := List.getLast?_eq_none_iff.1 hlast
    refine ⟨front, k + k', ?_, hfront⟩
    rw [List.nil_append, List.append_assoc, List.replicate_append_replicate]
  | some c =>
    refine ⟨front ++ List.replicate k ' ' ++ front', k', by simp, ?_⟩
    rw [List.getLast?_append, hlast, Option.some_or]
    rwa [hlast] at hfront'

theorem endsInSpaces_intercalate {sep : List Char} {cells : List (List Char)}
    (hsep : EndsInSpaces sep) (h : ∀ cell ∈ cells, EndsInSpaces cell) :
    EndsInSpaces (sep.intercalate cells) := by
  induction cells with
  | nil => exact endsInSpaces_replicate 0
  | cons cell cells ih =>
    obtain ⟨hcell, hcells⟩ := List.forall_mem_cons.1 h
    cases cells with
    | nil => simpa using hcell
    | cons next cells =>
      rw [List.intercalate_cons_cons]
      exact (hcell.append hsep).append (ih hcells)

/-! ### Characters by their number -/

/-- A stretch of a line, which goes on with spaces after its end. -/
def stretch (line : List Char) (start length : Nat) : List Char :=
  List.ofFn fun k : Fin length => line.getD (start + k) ' '

theorem stretch_append_spaces (line : List Char) (k start length : Nat) :
    stretch (line ++ List.replicate k ' ') start length = stretch line start length := by
  rw [stretch, stretch]
  congr 1
  funext i
  by_cases hi : start + i < line.length
  · exact List.getD_append line _ _ _ hi
  · have hi := Nat.not_lt.1 hi
    rw [List.getD_append_right line _ _ _ hi, List.getD_eq_default line _ hi,
      List.getD_eq_getElem?_getD, List.getElem?_replicate]
    split <;> rfl

theorem stretch_append (front middle rest : List Char) :
    stretch (front ++ (middle ++ rest)) front.length middle.length = middle := by
  apply List.ext_getElem
  · rw [stretch, List.length_ofFn]
  · intro i hi hmiddle
    simp only [stretch, List.getElem_ofFn]
    rw [List.getD_append_right _ _ _ _ (Nat.le_add_right _ _), Nat.add_sub_cancel_left,
      List.getD_append _ _ _ _ hmiddle, List.getD_eq_getElem _ _ hmiddle]

/-- The number of the first character in a column, where each column before it has two more
characters than its width. -/
def offset {n : Nat} (widths : Fin n → Nat) (column : Fin n) : Nat :=
  ∑ before ∈ Finset.Iio column, (widths before + 2)

/-! ### Lines -/

variable {n : Nat} {t : Table n} {row : Row n} {widths : Fin n → Nat} {column : Fin n}

/-- A cell of a row with the spaces that fill its column. -/
def filled (widths : Fin n → Nat) (row : Row n) (column : Fin n) : List Char :=
  (row column).toList ++ List.replicate (widths column - (row column).length) ' '

/-- The cells of a row, every one with two spaces after it. -/
def laidOut (widths : Fin n → Nat) (row : Row n) : List Char :=
  ((List.finRange n).map (filled widths row)).flatMap (· ++ [' ', ' '])

/-- A line shows a row: each cell is at the offset of its column, filled with spaces, and two spaces
come after it. -/
structure Shows (widths : Fin n → Nat) (row : Row n) (line : String) : Prop where
  fits : ∀ column, (row column).length ≤ widths column
  cell : ∀ column, stretch line.toList (offset widths column) (widths column)
    = filled widths row column
  gap : ∀ column, stretch line.toList (offset widths column + widths column) 2 = [' ', ' ']

theorem length_filled (h : (row column).length ≤ widths column) :
    (filled widths row column).length = widths column := by
  rw [filled, List.length_append, List.length_replicate, String.length_toList]
  omega

theorem mem_laidOut {c : Char} (h : c ∈ laidOut widths row) :
    c = ' ' ∨ ∃ column, c ∈ (row column).toList := by
  obtain ⟨cell, hcell, hc⟩ := List.mem_flatMap.1 h
  obtain ⟨column, _, rfl⟩ := List.mem_map.1 hcell
  rw [filled, List.mem_append, List.mem_append] at hc
  rcases hc with (hc | hc) | hc
  · exact .inr ⟨column, hc⟩
  · exact .inl (List.eq_of_mem_replicate hc)
  · exact .inl (by simpa using hc)

/-- The columns in order, cut at one of them. -/
theorem exists_before (column : Fin n) : ∃ before after,
    List.finRange n = before ++ column :: after ∧ ∀ i, i ∈ before ↔ i < column := by
  obtain ⟨before, after, hsplit⟩ := List.append_of_mem (List.mem_finRange column)
  have horder := List.pairwise_lt_finRange n
  rw [hsplit, List.pairwise_append, List.pairwise_cons] at horder
  refine ⟨before, after, hsplit, fun i => ⟨fun hi => ?_, fun hi => ?_⟩⟩
  · exact horder.2.2 i hi column List.mem_cons_self
  · have hmem := List.mem_finRange i
    rw [hsplit, List.mem_append, List.mem_cons] at hmem
    rcases hmem with hmem | rfl | hmem
    · exact hmem
    · exact absurd hi (lt_irrefl i)
    · exact absurd hi (lt_asymm (horder.2.1.1 i hmem))

/-- The offset of a column is the length of what is laid out before it. -/
theorem exists_laidOut_eq (hfits : ∀ column, (row column).length ≤ widths column)
    (column : Fin n) : ∃ front rest, front.length = offset widths column
      ∧ laidOut widths row = front ++ (filled widths row column ++ ([' ', ' '] ++ rest)) := by
  obtain ⟨before, after, hsplit, hbefore⟩ := exists_before column
  refine ⟨(before.map (filled widths row)).flatMap (· ++ [' ', ' ']),
    (after.map (filled widths row)).flatMap (· ++ [' ', ' ']), ?_, ?_⟩
  · have hnodup : before.Nodup := by
      have hall := List.nodup_finRange n
      rw [hsplit, List.nodup_append] at hall
      exact hall.1
    have hcolumns : Finset.Iio column = before.toFinset := by
      ext i
      rw [Finset.mem_Iio, List.mem_toFinset, hbefore]
    rw [offset, hcolumns, List.sum_toFinset _ hnodup, List.length_flatMap, List.map_map]
    congr 1
    apply List.map_congr_left
    intro i _
    simp [length_filled (hfits i)]
  · rw [laidOut, hsplit]
    simp

theorem toList_line (t : Table n) (row : Row n) : (t.line row).toList
    = dropTrailingBlanks ([' ', ' '].intercalate ((List.finRange n).map (filled t.width row))) := by
  have hcells : ((List.finRange n).map fun column => padded (t.width column) (row column)).map
      String.toList = (List.finRange n).map (filled t.width row) := by
    rw [List.map_map]
    apply List.map_congr_left
    intro column _
    simp [padded, filled]
  rw [line, trimEnd, String.toList_ofList, String.toList_intercalate, hcells]
  rfl

/-- With two spaces after every cell there are only spaces more than with two between the cells. -/
theorem exists_intercalate_append (cells : List (List Char)) :
    ∃ k, cells.flatMap (· ++ [' ', ' '])
      = [' ', ' '].intercalate cells ++ List.replicate k ' ' := by
  induction cells with
  | nil => exact ⟨0, rfl⟩
  | cons cell cells ih =>
    cases cells with
    | nil => exact ⟨2, by simp⟩
    | cons next cells =>
      obtain ⟨k, hk⟩ := ih
      refine ⟨k, ?_⟩
      rw [List.flatMap_cons, hk, List.intercalate_cons_cons, List.append_assoc, List.append_assoc,
        List.append_assoc]

/-- A line is what is laid out, less spaces at the end. -/
theorem exists_line_append (h : ∀ column, IsLine (row column)) :
    (∃ k, laidOut t.width row = (t.line row).toList ++ List.replicate k ' ')
      ∧ ∀ c ∈ (t.line row).toList.getLast?, isBlank c = false := by
  have hends : EndsInSpaces
      ([' ', ' '].intercalate ((List.finRange n).map (filled t.width row))) := by
    refine endsInSpaces_intercalate (endsInSpaces_replicate 2) fun cell hcell => ?_
    obtain ⟨column, _, rfl⟩ := List.mem_map.1 hcell
    exact ⟨_, _, rfl, (h column).last⟩
  obtain ⟨front, k, hfront, hlast⟩ := hends
  have hline : (t.line row).toList = front := by
    rw [toList_line, hfront, dropTrailingBlanks_append_spaces k hlast]
  obtain ⟨k', hk'⟩ := exists_intercalate_append ((List.finRange n).map (filled t.width row))
  refine ⟨⟨k + k', ?_⟩, by rwa [hline]⟩
  rw [laidOut, hk', hfront, hline, List.append_assoc, List.replicate_append_replicate]

theorem isLine_line (h : ∀ column, IsLine (row column)) : IsLine (t.line row) := by
  obtain ⟨⟨k, hk⟩, hlast⟩ := exists_line_append (t := t) h
  refine ⟨fun hbreak => ?_, hlast⟩
  have hmem : '\n' ∈ laidOut t.width row := hk ▸ List.mem_append_left _ hbreak
  rcases mem_laidOut hmem with hspace | ⟨column, hcell⟩
  · cases hspace
  · exact (h column).single hcell

theorem shows_line (hfits : ∀ column, (row column).length ≤ t.width column)
    (h : ∀ column, IsLine (row column)) : Shows t.width row (t.line row) := by
  obtain ⟨⟨k, hk⟩, _⟩ := exists_line_append (t := t) h
  refine ⟨hfits, fun column => ?_, fun column => ?_⟩
  · obtain ⟨front, rest, hfront, hline⟩ := exists_laidOut_eq hfits column
    have hstretch := stretch_append front (filled t.width row column) ([' ', ' '] ++ rest)
    rwa [← hline, hk, hfront, length_filled (hfits column), stretch_append_spaces] at hstretch
  · obtain ⟨front, rest, hfront, hline⟩ := exists_laidOut_eq hfits column
    have hstretch := stretch_append (front ++ filled t.width row column) [' ', ' '] rest
    rwa [List.append_assoc, ← hline, hk, List.length_append, hfront,
      length_filled (hfits column), stretch_append_spaces] at hstretch

/-! ### Widths -/

theorem isGreatest_width (t : Table n) (column : Fin n) :
    IsGreatest {k | ∃ row ∈ t.headers :: t.rows, (row column).length = k} (t.width column) := by
  have hmax : ((t.headers :: t.rows).map fun row => (row column).length).max?
      = some (t.width column) := by
    rw [List.map_cons, List.max?_cons', width, List.foldl_map]
  obtain ⟨hmem, hle⟩ := List.max?_eq_some_iff.1 hmax
  constructor
  · exact List.mem_map.1 hmem
  · rintro k ⟨row, hrow, rfl⟩
    exact hle _ (List.mem_map_of_mem hrow)

theorem isLine_dashes (t : Table n) (column : Fin n) : IsLine (t.dashes column) := by
  apply isLine_of_not_isBlank
  intro c hc
  rw [dashes, String.toList_ofList] at hc
  rw [List.eq_of_mem_replicate hc]
  rfl

/-! ### The whole table -/

/-- The cells that a line shows in columns of known widths. -/
def readLine (widths : Fin n → Nat) (line : List Char) : Row n := fun column =>
  trimEnd (String.ofList (stretch line (offset widths column) (widths column)))

def readLines (widths : Fin n → Nat) (text : String) : List (Row n) :=
  (text.toList.splitOn '\n').dropLast.map (readLine widths)

theorem Shows.readLine_eq {line : String} (hshows : Shows widths row line)
    (h : ∀ column, IsLine (row column)) : readLine widths line.toList = row := by
  funext column
  rw [readLine, hshows.cell, trimEnd, String.toList_ofList, filled,
    dropTrailingBlanks_append_spaces _ (h column).last, String.ofList_toList]

theorem flatMap_ends (ls : List (List Char)) :
    ls.flatMap (· ++ ['\n']) = ['\n'].intercalate (ls ++ [[]]) := by
  induction ls with
  | nil => rfl
  | cons l ls ih =>
    rw [List.flatMap_cons, ih]
    cases ls with
    | nil => simp
    | cons next ls => simp [List.intercalate_cons_cons]

theorem splitOn_ends {ls : List (List Char)} (h : ∀ l ∈ ls, '\n' ∉ l) :
    (ls.flatMap (· ++ ['\n'])).splitOn '\n' = ls ++ [[]] := by
  rw [flatMap_ends]
  refine List.splitOn_intercalate '\n' (fun l hl => ?_) (by simp)
  rcases List.mem_append.1 hl with hl | hl
  · exact h l hl
  · simp [List.mem_singleton.1 hl]

/-- The rows that the lines of a table show, the dashes among them. -/
def shown (t : Table n) : List (Row n) := t.headers :: t.dashes :: t.rows

theorem lines_eq (t : Table n) : t.lines = t.shown.map t.line := by
  rw [lines, shown, List.map_cons, List.map_cons]

theorem isLine_of_mem_shown (h : ∀ row ∈ t.headers :: t.rows, ∀ column, IsLine (row column)) :
    ∀ row ∈ t.shown, ∀ column, IsLine (row column) := by
  obtain ⟨hheaders, hrows⟩ := List.forall_mem_cons.1 h
  exact List.forall_mem_cons.2 ⟨hheaders, List.forall_mem_cons.2 ⟨isLine_dashes t, hrows⟩⟩

theorem length_le_width : ∀ row ∈ t.shown, ∀ column, (row column).length ≤ t.width column := by
  have hle : ∀ row ∈ t.headers :: t.rows, ∀ column, (row column).length ≤ t.width column :=
    fun row hrow column => (isGreatest_width t column).2 ⟨row, hrow, rfl⟩
  obtain ⟨hheaders, hrows⟩ := List.forall_mem_cons.1 hle
  have hdashes : ∀ column, (t.dashes column).length ≤ t.width column := by
    intro column
    simp [dashes]
  exact List.forall_mem_cons.2 ⟨hheaders, List.forall_mem_cons.2 ⟨hdashes, hrows⟩⟩

theorem toList_render (t : Table n) :
    t.render.toList = (t.shown.map fun row => (t.line row).toList).flatMap (· ++ ['\n']) := by
  rw [render, lines_eq, String.toList_join, List.flatMap_map, List.flatMap_map, List.flatMap_map]
  apply List.flatMap_congr
  intro row _
  rw [String.toList_append]
  rfl

theorem shows_of_mem_shown (h : ∀ row ∈ t.headers :: t.rows, ∀ column, IsLine (row column)) :
    ∀ row ∈ t.shown, Shows t.width row (t.line row) :=
  fun row hrow => shows_line (length_le_width row hrow) (isLine_of_mem_shown h row hrow)

theorem readLines_render (h : ∀ row ∈ t.headers :: t.rows, ∀ column, IsLine (row column)) :
    readLines t.width t.render = t.shown := by
  have hlines := isLine_of_mem_shown h
  have hsingle : ∀ l ∈ t.shown.map fun row => (t.line row).toList, '\n' ∉ l := by
    intro l hl
    obtain ⟨row, hrow, rfl⟩ := List.mem_map.1 hl
    exact (isLine_line (hlines row hrow)).single
  have hread : ∀ row ∈ t.shown, readLine t.width (t.line row).toList = row := fun row hrow =>
    (shows_of_mem_shown h row hrow).readLine_eq (hlines row hrow)
  rw [readLines, toList_render, splitOn_ends hsingle, List.dropLast_concat, List.map_map]
  exact (List.map_congr_left hread).trans (List.map_id' t.shown)

/-- **Reading a table.** Where no cell has a line break or ends in a blank, all cells can be read
from text and widths. -/
theorem cells_are_read_from_columns (t : Table n)
    (h : ∀ row ∈ t.headers :: t.rows, ∀ column, IsLine (row column)) :
    let rule : Row n := fun column => String.ofList (List.replicate (t.width column) '-')
    let rows := t.headers :: rule :: t.rows
    (∀ column, IsGreatest {k | ∃ row ∈ t.headers :: t.rows, (row column).length = k}
        (t.width column))
    ∧ (∃ lines : List String, t.render = String.join (lines.map (· ++ "\n"))
      ∧ lines.length = t.rows.length + 2 ∧ (∀ line ∈ lines, IsLine line)
      ∧ List.Forall₂ (Shows t.width) rows lines)
    ∧ readLines t.width t.render = rows := by
  intro rule rows
  refine ⟨isGreatest_width t, ⟨t.lines, rfl, ?_, ?_, ?_⟩, readLines_render h⟩
  · rw [lines, List.length_cons, List.length_cons, List.length_map]
  · intro line hline
    rw [lines_eq] at hline
    obtain ⟨row, hrow, rfl⟩ := List.mem_map.1 hline
    exact isLine_line (isLine_of_mem_shown h row hrow)
  · change List.Forall₂ (Shows t.width) t.shown t.lines
    rw [lines_eq, List.forall₂_map_right_iff, List.forall₂_same]
    exact shows_of_mem_shown h

/-- Cells are as wide as they have characters, and a line ends where only empty cells are left. -/
theorem accented_and_empty_cells_are_read :
    let t : Table 2 := ⟨["NAME", "N"].get, [["é", ""].get, ["", "10"].get]⟩
    (∀ row ∈ t.headers :: t.rows, ∀ column, IsLine (row column))
      ∧ t.render = "NAME  N\n----  --\né\n      10\n"
      ∧ readLines t.width t.render = t.headers :: t.dashes :: t.rows := by
  intro t
  have hlines : ∀ row ∈ t.headers :: t.rows, ∀ column, IsLine (row column) := by decide +kernel
  exact ⟨hlines, by decide +kernel, (cells_are_read_from_columns t hlines).2.2⟩

/-! ### The table of actions -/

theorem isBlank_of_isDigit {c : Char} (h : c.isDigit = true) : isBlank c = false := by
  have hvalue : 48 ≤ c.toNat ∧ c.toNat ≤ 57 := by
    simpa [Char.isDigit, UInt32.le_iff_toNat_le] using h
  simp [isBlank]
  omega

theorem isLine_order (order : Int64) : IsLine (toString order) := by
  have hdigits : ∀ m : Nat, ∀ c ∈ m.repr.toList, isBlank c = false := by
    intro m c hc
    rw [Nat.toList_repr] at hc
    exact isBlank_of_isDigit (Nat.isDigit_of_mem_toDigits (by decide) (by decide) hc)
  apply isLine_of_not_isBlank
  intro c hc
  change c ∈ order.toInt.repr.toList at hc
  rw [Int.repr_eq_if] at hc
  split at hc
  · exact hdigits _ c hc
  · rw [String.toList_append, List.mem_append] at hc
    rcases hc with hsign | hc
    · rw [List.mem_singleton.1 hsign]
      rfl
    · exact hdigits _ c hc

theorem isLine_get (cells : List String) (h : ∀ cell ∈ cells, IsLine cell)
    (column : Fin cells.length) : IsLine (cells.get column) :=
  h _ (List.get_mem cells column)

/-- What was registered can be read from the table of actions, where no name and no title has a line
break: they are trimmed. -/
theorem readLines_actionTable {b : Bench} {past : List Registration} (h : Reached b past)
    (hsingle : ∀ a ∈ b.registry.actions, '\n' ∉ a.name.toList ∧ '\n' ∉ a.title.toList) :
    readLines (actionTable b.registry).width (actionTable b.registry).render
      = (actionTable b.registry).shown := by
  have hheaders : ∀ column, IsLine ((actionTable b.registry).headers column) :=
    isLine_get ["NAME", "ORDER", "SCOPE", "TITLE"] (by decide +kernel)
  apply readLines_render
  refine List.forall_mem_cons.2 ⟨hheaders, fun row hrow => ?_⟩
  obtain ⟨a, ha, rfl⟩ := List.mem_map.1 hrow
  have ha : a ∈ b.registry.actions := b.registry.isStableSort_sortedActions.perm.mem_iff.1 ha
  have hchecked := h.isChecked_of_mem ha
  have hscope : IsLine (scopeWord a) := by
    rw [scopeWord]
    split <;> decide +kernel
  refine isLine_get [a.name, toString a.order, scopeWord a, a.title] ?_
  simp only [List.forall_mem_cons, List.not_mem_nil, false_implies, implies_true, and_true]
  exact ⟨⟨(hsingle a ha).1, hchecked.name.last⟩, isLine_order a.order, hscope,
    ⟨(hsingle a ha).2, hchecked.title.last⟩⟩

end ActionRegistry.CommandLine.Table
