import ActionRegistry.Proofs.Yaml.Value

/-!
# The tokens of the lines of a mapping

The scanner goes from line to line. The first line starts the mapping, and the end of the text ends
it.
-/

namespace ActionRegistry.Yaml

namespace Scanner

variable {s s' : Scanner} {c : Cursor} {queue : List Token} {token : Token} {name rest : List Char}
  {isFirst allowsKey : Bool} {fuel released i l : Nat}

/-! ### Steps -/

theorem run_of_fetch (hqueue : s.queue = []) (h : s.fetch = some s') :
    run (fuel + 1) s = run fuel s' := by
  rw [run, hqueue, h]
  rfl

/-- As long as the first token of the queue may become a key, no token leaves. -/
theorem run_of_waits (hqueue : s.queue = token :: queue) (hdrop : s.dropLapsed = some s)
    (hwaits : s.waits = true) (h : s.fetch = some s') : run (fuel + 1) s = run fuel s' := by
  rw [run, hqueue, hdrop]
  simp [hwaits, h]

theorem run_release (htoken : token ≠ .streamEnd) :
    run (fuel + 1) (inMapping c (token :: queue) released allowsKey)
      = token :: run fuel (inMapping c queue (released + 1) allowsKey) := by
  have hdrop : (inMapping c (token :: queue) released allowsKey).dropLapsed
      = some (inMapping c (token :: queue) released allowsKey) := dropLapsed_eq rfl nofun
  have hwaits : (inMapping c (token :: queue) released allowsKey).waits = false := rfl
  rw [run]
  simp only [hdrop]
  rw [hwaits]
  simp [inMapping, htoken]

/-- Outside of all places for keys the tokens of the queue leave it. -/
theorem run_queue (hqueue : .streamEnd ∉ queue) :
    run (fuel + queue.length) (inMapping c queue released allowsKey)
      = queue ++ run fuel (inMapping c [] (released + queue.length) allowsKey) := by
  induction queue generalizing released with
  | nil => rfl
  | cons token queue ih =>
    rw [List.mem_cons, not_or] at hqueue
    rw [List.length_cons, ← Nat.add_assoc, run_release (Ne.symm hqueue.1), ih hqueue.2,
      Nat.add_right_comm]
    rfl

/-! ### Lines -/

theorem run_key (isFirst : Bool) (released : Nat) (hname : IsKey name)
    (h : BeforeLine (name ++ ':' :: ' ' :: rest) c allowsKey) :
    ∃ i l k, k ≠ 0 ∧ ∀ fuel, run (fuel + 2) (beforeLine isFirst c released allowsKey)
      = run fuel (inMapping ⟨' ' :: rest, i, l, k⟩ (keyTokens isFirst name) released false) := by
  obtain ⟨i, l, hkey⟩ := fetch_key isFirst released hname h
  have hdrop : (afterKey isFirst name rest released i l).dropLapsed
      = some (afterKey isFirst name rest released i l) :=
    dropLapsed_eq rfl (not_hasLapsed_afterKey hname)
  have hwaits : (afterKey isFirst name rest released i l).waits = true := by
    simp [waits, afterKey]
  refine ⟨i + name.length + 1, l, name.length + 1, Nat.succ_ne_zero _, fun fuel => ?_⟩
  rw [run_of_fetch rfl hkey, run_of_waits rfl hdrop hwaits (fetch_colon hname)]

/-- A line that was written for an entry, and the scalar that its value is read as. -/
structure Line where
  name : List Char
  form : List Char
  text : List Char
  style : ScalarStyle

namespace Line

/-- The characters of a line, a literal block having further ones. -/
def written (e : Line) : List Char := e.name ++ ':' :: ' ' :: e.form ++ lineEndAfter e.form

def tokens (e : Line) : List Token :=
  [.key, .scalar e.name .plain, .value, .scalar e.text e.style]

structure IsRead (e : Line) : Prop where
  key : IsKey e.name
  value : ReadsAs e.form (.scalar e.text e.style)

end Line

variable {e : Line} {lines : List Line}

theorem head?_written (h : e.IsRead) : ∀ x ∈ (e.written ++ rest).head?, isKeyChar x = true := by
  obtain ⟨x, more, hname⟩ := List.exists_cons_of_ne_nil h.key.ne_nil
  intro y hy
  rw [Line.written, hname] at hy
  rw [← Option.some.inj hy]
  exact h.key.letters x (hname ▸ List.mem_cons_self)

theorem head?_lines (h : ∀ e ∈ lines, e.IsRead) :
    ∀ x ∈ (lines.flatMap Line.written).head?, isKeyChar x = true := by
  cases lines with
  | nil => nofun
  | cons e lines => exact head?_written (h e List.mem_cons_self)

theorem length_le_lines (lines : List Line) :
    lines.length ≤ (lines.flatMap Line.written).length := by
  induction lines with
  | nil => exact Nat.le_refl 0
  | cons e lines ih =>
    rw [List.flatMap_cons, List.length_append, List.length_cons, Line.written]
    simp only [List.length_append, List.length_cons]
    omega

/-- A line is read to the start of the next one. -/
theorem run_line (isFirst : Bool) (released : Nat) (h : e.IsRead)
    (hrest : ∀ x ∈ rest.head?, isKeyChar x = true)
    (hline : BeforeLine (e.written ++ rest) c allowsKey) :
    ∃ c' released' allowsKey', BeforeLine rest c' allowsKey'
      ∧ ∀ fuel, run (fuel + 2 + (keyTokens isFirst e.name).length + 2)
          (beforeLine isFirst c released allowsKey)
        = keyTokens isFirst e.name ++ .scalar e.text e.style
          :: run fuel (beforeLine false c' released' allowsKey') := by
  have hwritten : e.written ++ rest
      = e.name ++ ':' :: ' ' :: (e.form ++ lineEndAfter e.form ++ rest) := by
    simp [Line.written]
  have hend : Token.streamEnd ∉ keyTokens isFirst e.name := by
    cases isFirst <;> simp [keyTokens]
  rw [hwritten] at hline
  obtain ⟨i, l, k, hk, hkey⟩ := run_key isFirst released h.key hline
  obtain ⟨c', allowsKey', hbefore, hvalue⟩ := h.value rest
    (released + (keyTokens isFirst e.name).length) i l k hk hrest
  refine ⟨c', released + (keyTokens isFirst e.name).length + 1, allowsKey', hbefore, fun fuel => ?_⟩
  have hrun : run (fuel + 2) (inMapping
      ⟨' ' :: (e.form ++ lineEndAfter e.form ++ rest), i, l, k⟩ []
        (released + (keyTokens isFirst e.name).length) false)
      = .scalar e.text e.style :: run fuel (beforeLine false c'
        (released + (keyTokens isFirst e.name).length + 1) allowsKey') := by
    refine (run_of_fetch rfl hvalue).trans ?_
    have htoken : Token.scalar e.text e.style ≠ .streamEnd := by simp
    rw [run_release htoken]
    rfl
  rw [hkey, run_queue hend, hrun]

theorem run_end (h : BeforeLine [] c allowsKey) :
    run (fuel + 3) (beforeLine false c released allowsKey) = [.blockEnd, .streamEnd] := by
  obtain ⟨i, l, hplace⟩ := h.nextPlace_eq nofun
  have hfetch := fetch_eq (s := beforeLine false c released allowsKey) rfl rfl rfl hplace nofun
    (Nat.le_refl 1)
  have hread : (beforeLine false ⟨[], i, l, 0⟩ released true).readToken
      = some ⟨⟨[], i, l, 0⟩, [.blockEnd, .streamEnd], released, false, 0, [], none, []⟩ := by
    rfl
  rw [run_of_fetch rfl (hfetch.trans hread)]
  rfl

/-- The lines after the first one are read, and then the text ends. -/
theorem run_lines (h : ∀ e ∈ lines, e.IsRead)
    (hbefore : BeforeLine (lines.flatMap Line.written) c allowsKey) :
    run (fuel + 3 + 7 * lines.length) (beforeLine false c released allowsKey)
      = lines.flatMap Line.tokens ++ [.blockEnd, .streamEnd] := by
  induction lines generalizing c released allowsKey with
  | nil => exact run_end hbefore
  | cons e lines ih =>
    obtain ⟨he, h⟩ := List.forall_mem_cons.1 h
    have hfuel : fuel + 3 + 7 * (e :: lines).length
        = fuel + 3 + 7 * lines.length + 2 + (keyTokens false e.name).length + 2 := by
      rw [List.length_cons]
      show _ = _ + 2 + 3 + 2
      omega
    obtain ⟨c', released', allowsKey', hbefore', hrun⟩ :=
      run_line false released he (head?_lines h) hbefore
    rw [hfuel, hrun, ih h hbefore']
    rfl

end Scanner

/-- The tokens of the lines of a mapping that has one line at least. -/
theorem Token.ofText_lines {lines : List Scanner.Line} (hne : lines ≠ [])
    (h : ∀ e ∈ lines, e.IsRead) (hallowed : ∀ e ∈ lines, ∀ c ∈ e.written, isAllowed c = true) :
    Token.ofText (lines.flatMap Scanner.Line.written)
      = .blockMappingStart :: (lines.flatMap Scanner.Line.tokens ++ [.blockEnd, .streamEnd]) := by
  have hall : (lines.flatMap Scanner.Line.written).all isAllowed = true := by
    rw [List.all_eq_true]
    intro c hc
    obtain ⟨e, he, hc⟩ := List.mem_flatMap.1 hc
    exact hallowed e he c hc
  have hlength : lines.length ≤ (lines.flatMap Scanner.Line.written).length :=
    Scanner.length_le_lines lines
  generalize hn : (lines.flatMap Scanner.Line.written).length = n at hlength
  obtain ⟨e, lines, rfl⟩ := List.exists_cons_of_ne_nil hne
  obtain ⟨he, h⟩ := List.forall_mem_cons.1 h
  obtain ⟨fuel, hfuel⟩ : ∃ fuel, 8 * n + 16
      = fuel + 3 + 7 * lines.length + 2 + (Scanner.keyTokens true e.name).length + 2 := by
    refine ⟨8 * n + 16 - (7 * lines.length + 11), ?_⟩
    rw [List.length_cons] at hlength
    show _ = _ + 3 + 7 * lines.length + 2 + 4 + 2
    omega
  obtain ⟨c, released, allowsKey, hbefore, hrun⟩ := Scanner.run_line true 0 he
    (Scanner.head?_lines h) (c := .start ((e :: lines).flatMap Scanner.Line.written))
    (.inl ⟨0, 0, rfl, rfl⟩)
  have hstart : Scanner.start ((e :: lines).flatMap Scanner.Line.written)
    = Scanner.beforeLine true (.start ((e :: lines).flatMap Scanner.Line.written)) 0 true := rfl
  rw [ofText, if_pos hall, hn, hfuel, hstart, hrun, Scanner.run_lines h hbefore]
  rfl

end ActionRegistry.Yaml
