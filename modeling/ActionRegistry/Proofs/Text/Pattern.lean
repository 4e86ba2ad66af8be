/-!
# Patterns

A pattern matches at a place of a text in several ways, which are tried one after the other: of
characters taken as few as possible, the shorter run comes first, and an optional character is tried
before going without it. The match is the first way at the first place that has one, and what it
tells are the texts of the groups.
-/

namespace ActionRegistry.Text

inductive Pattern where
  | start
  | finish
  | literal (s : String)
  /-- Accepted characters, as few as possible. -/
  | few (accepts : Char → Bool)
  | optional (c : Char)
  | group (p : Pattern)
  | seq (p q : Pattern)

namespace Pattern

/-- A way to match: what is taken, what is left and the texts of the groups. -/
structure Way where
  taken : List Char
  rest : List Char
  groups : List (List Char)

def fewWays (accepts : Char → Bool) : List Char → List Way
  | [] => [⟨[], [], []⟩]
  | c :: cs =>
    ⟨[], c :: cs, []⟩ ::
      if accepts c then (fewWays accepts cs).map fun w => { w with taken := c :: w.taken } else []

/-- The ways to match at a place, in the order in which they are tried. -/
def ways : Pattern → (atStart : Bool) → List Char → List Way
  | start, atStart, cs => if atStart then [⟨[], cs, []⟩] else []
  | finish, _, cs => if cs.isEmpty then [⟨[], [], []⟩] else []
  | literal s, _, cs =>
    if s.toList.isPrefixOf cs then [⟨s.toList, cs.drop s.toList.length, []⟩] else []
  | few accepts, _, cs => fewWays accepts cs
  | optional c, _, cs =>
    (if [c].isPrefixOf cs then [⟨[c], cs.tail, []⟩] else []) ++ [⟨[], cs, []⟩]
  | group p, atStart, cs =>
    (p.ways atStart cs).map fun w => { w with groups := w.taken :: w.groups }
  | seq p q, atStart, cs => (p.ways atStart cs).flatMap fun w =>
    (q.ways (atStart && w.taken.isEmpty) w.rest).map fun w' =>
      ⟨w.taken ++ w'.taken, w'.rest, w.groups ++ w'.groups⟩

/-- The groups of the first way to match at a place. -/
def first? (p : Pattern) (atStart : Bool) (cs : List Char) : Option (List (List Char)) :=
  (p.ways atStart cs).head?.map (·.groups)

/-- The groups of the first way to match at a place or behind it. -/
def search? (p : Pattern) : (atStart : Bool) → List Char → Option (List (List Char))
  | atStart, [] => p.first? atStart []
  | atStart, c :: cs => (p.first? atStart (c :: cs)).or (search? p false cs)

def groups? (p : Pattern) (s : String) : Option (List String) :=
  (p.search? true s.toList).map (·.map String.ofList)

variable (p : Pattern) (atStart : Bool) (cs : List Char)

theorem first?_start : (seq start p).first? true cs = p.first? true cs := by
  simp [first?, ways]

theorem first?_start_false : (seq start p).first? false cs = none := by
  simp [first?, ways]

theorem first?_literal (s : String) : (seq (literal s) p).first? atStart cs
    = if s.toList.isPrefixOf cs then p.first? (atStart && s.toList.isEmpty)
      (cs.drop s.toList.length) else none := by
  by_cases h : s.toList.isPrefixOf cs
  · simp [first?, ways, h, Function.comp_def]
  · simp [first?, ways, h]

theorem first?_group_literal (s : String) : (seq (group (literal s)) p).first? atStart cs
    = if s.toList.isPrefixOf cs then (p.first? (atStart && s.toList.isEmpty)
      (cs.drop s.toList.length)).map (s.toList :: ·) else none := by
  by_cases h : s.toList.isPrefixOf cs
  · simp [first?, ways, h, Function.comp_def]
  · simp [first?, ways, h]

/-- A pattern that starts at the start of a text is matched nowhere else. -/
theorem search?_start : (seq start p).search? true cs = p.first? true cs := by
  have hlater : ∀ cs, (seq start p).search? false cs = none := by
    intro cs
    induction cs with
    | nil => exact first?_start_false p []
    | cons c cs ih => rw [search?, ih, first?_start_false, Option.or_none]
  cases cs with
  | nil => exact first?_start p []
  | cons c cs => rw [search?, hlater, first?_start, Option.or_none]

end Pattern

end ActionRegistry.Text
