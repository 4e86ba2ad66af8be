import ActionRegistry.Proofs.Yaml.Lines

/-!
# Mappings that are written and read

A mapping that was written is one document, whatever texts and numbers are in it: the values are
printed so that nothing in them is taken for markup, and the lines are read one by one.
-/

namespace ActionRegistry.Yaml

open Writer Scanner

/-! ### What is written is printable -/

section Printable

variable {cs : List Char} {c : Char}

theorem mem_apostropheBody {afterBreak : Bool} (h : c ∈ apostropheBody afterBreak cs) :
    c ∈ cs ∨ c = ' ' := by
  have hindentation : c ∈ indentation → c = ' ' := by simp [indentation]
  induction cs generalizing afterBreak with
  | nil =>
    rw [apostropheBody] at h
    split at h
    · exact .inr (hindentation h)
    · cases h
  | cons x cs ih =>
    have hrest : ∀ {b}, c ∈ apostropheBody b cs → c ∈ x :: cs ∨ c = ' ' := fun hc =>
      (ih hc).imp_left (List.mem_cons_of_mem x)
    rw [apostropheBody] at h
    split at h
    · rcases List.mem_cons.1 h with rfl | h
      · exact .inl List.mem_cons_self
      · exact hrest h
    · rw [List.mem_append, List.mem_append] at h
      rcases h with (h | h) | h
      · split at h
        · exact .inr (hindentation h)
        · cases h
      · have hx : c = x := by
          split at h <;> simpa using h
        exact .inl (hx ▸ List.mem_cons_self)
      · exact hrest h

theorem mem_blockBody {afterBreak : Bool} (h : c ∈ blockBody afterBreak cs) : c ∈ cs ∨ c = ' ' := by
  have hindentation : c ∈ indentation → c = ' ' := by simp [indentation]
  induction cs generalizing afterBreak with
  | nil => cases h
  | cons x cs ih =>
    have hrest : ∀ {b}, c ∈ x :: blockBody b cs → c ∈ x :: cs ∨ c = ' ' := by
      intro b hc
      rcases List.mem_cons.1 hc with rfl | hc
      · exact .inl List.mem_cons_self
      · exact (ih hc).imp_left (List.mem_cons_of_mem x)
    rw [blockBody] at h
    split at h
    · exact hrest h
    · rcases List.mem_append.1 h with h | h
      · split at h
        · exact .inr (hindentation h)
        · cases h
      · exact hrest h

theorem isPrintable_of_mem_spelling {x : Char} (h : c ∈ spelling false x) :
    isPrintable c = true := by
  rw [spelling, if_neg (by simp)] at h
  split at h
  next =>
    rcases List.mem_cons.1 h with rfl | h
    · decide
    · exact isPrintable_of_isAscii (isAscii_of_mem_escapeOf h)
  next hx =>
    rw [Bool.not_eq_true] at hx
    simp only [Bool.or_eq_false_iff, Bool.not_eq_false'] at hx
    rw [List.mem_singleton.1 h]
    exact hx.1.1.1

theorem isPrintable_of_mem_asBlock (hprintable : ∀ x ∈ cs, isPrintable x = true)
    (h : c ∈ asBlock cs) : isPrintable c = true := by
  have hhint : ∀ {x}, x ∈ chompingHint cs → x = '-' ∨ x = '+' := by
    intro x hx
    rw [chompingHint] at hx
    repeat' split at hx
    all_goals simp_all
  simp only [asBlock, List.cons_append, List.mem_cons, List.mem_append] at h
  rcases h with rfl | (h | h) | rfl | h
  · decide
  · split at h
    · rw [List.mem_singleton.1 h]
      decide
    · cases h
  · rcases hhint h with rfl | rfl <;> decide
  · decide
  · rcases mem_blockBody h with h | rfl
    · exact hprintable c h
    · decide

theorem isPrintable_of_mem_withQuotes (h : c ∈ withQuotes cs) : isPrintable c = true := by
  rw [withQuotes_eq, List.mem_append, List.mem_cons, List.mem_flatMap, List.mem_singleton] at h
  rcases h with (rfl | ⟨x, -, h⟩) | rfl
  · decide
  · exact isPrintable_of_mem_spelling h
  · decide

theorem isPrintable_of_mem_withApostrophes (hprintable : ∀ x ∈ cs, isPrintable x = true)
    (h : c ∈ withApostrophes cs) : isPrintable c = true := by
  rw [withApostrophes, List.mem_append, List.mem_cons, List.mem_singleton] at h
  rcases h with (rfl | h) | rfl
  · decide
  · rcases mem_apostropheBody h with h | rfl
    · exact hprintable c h
    · decide
  · decide

/-- What is written for a text is printable, whatever the text is. -/
theorem isPrintable_of_mem_text {s : String} (h : c ∈ text s) : isPrintable c = true := by
  rw [text] at h
  split at h
  next =>
    split at h
    next hblock =>
      exact isPrintable_of_mem_asBlock (isPrintable_of_allowsBlock hblock) h
    next => exact isPrintable_of_mem_withQuotes h
  next =>
    split at h
    next hplain =>
      rw [Bool.and_eq_true] at hplain
      exact isPrintable_of_allowsPlain hplain.2 c h
    next =>
      split at h
      next happ => exact isPrintable_of_mem_withApostrophes (allowsApostrophes_iff.1 happ).1 h
      next => exact isPrintable_of_mem_withQuotes h

theorem isPrintable_of_mem_form {f : Field} (h : c ∈ f.form) : isPrintable c = true := by
  cases f with
  | text s => exact isPrintable_of_mem_text h
  | number n => exact isPrintable_of_isAscii (isAscii_of_isDigit (isDigit_of_mem_toDigits h))

end Printable

/-! ### Nodes -/

section Nodes

variable {fuel : Nat} {cs : List Char} {style : ScalarStyle} {rest : List Token}
  {shorthands : List (List Char × TagPart)} {lines : List Line}

def Scanner.Line.node (e : Line) : Node × Node :=
  (.scalar none none (String.ofList e.name) .plain,
    .scalar none none (String.ofList e.text) e.style)

theorem Node.read_scalar {inBlock isFlat : Bool} :
    Node.read (fuel + 1) inBlock isFlat ⟨.scalar cs style :: rest, shorthands, []⟩
      = (.scalar none none (String.ofList cs) style, some ⟨rest, shorthands, []⟩) := by
  rfl

theorem Node.readUnless_scalar :
    Node.readUnless Node.endsBlockEntry (Node.read (fuel + 1) true true)
        ⟨.scalar cs style :: rest, shorthands, []⟩
      = (.scalar none none (String.ofList cs) style, some ⟨rest, shorthands, []⟩) := by
  simp [readUnless, endsBlockEntry, read_scalar]

/-- The entries of the lines of a mapping, to its end. -/
theorem Node.blockEntries_lines (hfuel : lines.length < fuel) :
    Node.blockEntries fuel ⟨lines.flatMap Line.tokens ++ .blockEnd :: rest, shorthands, []⟩
      = (lines.map Line.node, some ⟨rest, shorthands, []⟩) := by
  induction lines generalizing fuel with
  | nil =>
    obtain ⟨fuel, rfl⟩ : ∃ n, fuel = n + 1 := ⟨fuel - 1, by omega⟩
    rfl
  | cons e lines ih =>
    rw [List.length_cons] at hfuel
    obtain ⟨fuel, rfl⟩ : ∃ n, fuel = n + 2 := ⟨fuel - 2, by omega⟩
    have hentries : blockEntries (fuel + 1)
        ⟨lines.flatMap Line.tokens ++ .blockEnd :: rest, shorthands, []⟩
        = (lines.map Line.node, some ⟨rest, shorthands, []⟩) := ih (by omega)
    let part := readUnless endsBlockEntry (read (fuel + 1) true true)
    show readEntries (readEntry (part ⟨.scalar e.name .plain :: .value :: .scalar e.text e.style
        :: (lines.flatMap Line.tokens ++ .blockEnd :: rest), shorthands, []⟩)
        (readAfter .value part)) (blockEntries (fuel + 1)) = _
    simp only [part, readUnless_scalar, readEntry, readAfter, Feed.resume, if_true, readEntries,
      hentries]
    rfl

theorem Node.read_lines (hfuel : lines.length < fuel) :
    Node.read (fuel + 1) true false
        ⟨.blockMappingStart :: (lines.flatMap Line.tokens ++ .blockEnd :: rest), shorthands, []⟩
      = (.mapping none none (lines.map Line.node), some ⟨rest, shorthands, []⟩) := by
  have hentries : blockEntries fuel
      ⟨lines.flatMap Line.tokens ++ .blockEnd :: rest, shorthands, []⟩
      = (lines.map Line.node, some ⟨rest, shorthands, []⟩) := blockEntries_lines hfuel
  exact congrArg (fun p => (mapping none none p.1, p.2)) hentries

theorem length_le_tokens (lines : List Line) :
    lines.length ≤ (lines.flatMap Line.tokens).length := by
  induction lines with
  | nil => exact Nat.le_refl 0
  | cons e lines ih =>
    rw [List.flatMap_cons, List.length_append, List.length_cons]
    show _ ≤ 4 + _
    omega

/-- The lines of a mapping are one document. -/
theorem Document.ofTokens_lines :
    ofTokens (fuel + 2) true
        (.blockMappingStart :: (lines.flatMap Line.tokens ++ [.blockEnd, .streamEnd]))
      = [⟨.mapping none none (lines.map Line.node), true⟩] := by
  have hlength : lines.length ≤ (lines.flatMap Line.tokens).length := length_le_tokens lines
  generalize htokens : lines.flatMap Line.tokens ++ [.blockEnd, .streamEnd] = tokens
  have htokensLength : (lines.flatMap Line.tokens).length + 2 = tokens.length := by
    simp [← htokens]
  have hread : Node.read (4 * (Token.blockMappingStart :: tokens).length + 8) true false
      ⟨.blockMappingStart :: tokens, standardShorthands, []⟩
      = (.mapping none none (lines.map Line.node),
        some ⟨[.streamEnd], standardShorthands, []⟩) := by
    rw [← htokens]
    apply Node.read_lines
    rw [htokens, List.length_cons]
    omega
  have hcontent : content
      (Node.read (4 * (Token.blockMappingStart :: tokens).length + 8) true false)
      ⟨.blockMappingStart :: tokens, standardShorthands, []⟩
      = (⟨.mapping none none (lines.map Line.node), true⟩, some [.streamEnd]) := by
    rw [content, hread]
  have hend : ofTokens (fuel + 1) false [.streamEnd] = [] := rfl
  rw [List.length_cons] at hcontent
  rw [ofTokens]
  simp [endsDocument, hcontent, hend]

end Nodes

/-! ### Documents -/

/-- The line of a field, with the scalar that the value is read as. -/
theorem exists_line (name : String) (f : Field) (hname : IsKey name.toList) :
    ∃ e : Line, e.IsRead ∧ e.written = entry name f
      ∧ ∀ targets : Targets, targets.IsText e.node.1 name ∧ targets.Stands e.node.2 f := by
  obtain ⟨cs, style, hread, hstands⟩ := exists_readsAs f
  refine ⟨⟨name.toList, f.form, cs, style⟩, ⟨hname, hread⟩, rfl,
    fun targets => ⟨?_, hstands targets⟩⟩
  refine ⟨none, none, .plain, ?_⟩
  rw [Line.node, String.ofList_toList]
  rfl

theorem exists_lines (known : List String) {fields : List (String × Field)}
    (hkeys : ∀ f ∈ fields, IsKey f.1.toList) (hknown : ∀ f ∈ fields, f.1 ∈ known) :
    ∃ lines : List Line, (∀ e ∈ lines, e.IsRead)
      ∧ lines.flatMap Line.written = fields.flatMap (fun f => entry f.1 f.2)
      ∧ ∀ targets : Targets, targets.Lists known (lines.map Line.node) fields := by
  induction fields with
  | nil => exact ⟨[], nofun, rfl, fun _ => .nil⟩
  | cons f fields ih =>
    rw [List.forall_mem_cons] at hkeys hknown
    obtain ⟨lines, hread, hwritten, hlists⟩ := ih hkeys.2 hknown.2
    obtain ⟨e, he, hentry, hstands⟩ := exists_line f.1 f.2 hkeys.1
    refine ⟨e :: lines, List.forall_mem_cons.2 ⟨he, hread⟩, ?_, fun targets => ?_⟩
    · rw [List.flatMap_cons, List.flatMap_cons, hentry, hwritten]
    · exact .field (hstands targets).1 hknown.1 (hstands targets).2 (hlists targets)

theorem isAllowed_of_mem_entry {name : String} {f : Field} {c : Char} (hname : IsKey name.toList)
    (h : c ∈ entry name f) : isAllowed c = true := by
  apply isAllowed_of_isPrintable
  simp only [entry, List.mem_append, List.mem_cons] at h
  rcases h with (h | rfl | rfl | h) | h
  · exact isPrintable_of_isAscii (isAscii_of_isKeyChar (hname.letters c h))
  · decide
  · decide
  · exact isPrintable_of_mem_form h
  · split at h
    · cases h
    · rw [List.mem_singleton.1 h]
      decide

/-- A mapping that was written is read as one document with its fields. -/
theorem Document.isMapping_of_mapping (known : List String) {fields : List (String × Field)}
    (hne : fields ≠ []) (hkeys : ∀ f ∈ fields, IsKey f.1.toList)
    (hknown : ∀ f ∈ fields, f.1 ∈ known) :
    ∃ d, Document.ofText (mapping fields) = [d] ∧ d.IsMapping known fields := by
  obtain ⟨lines, hread, hwritten, hlists⟩ := exists_lines known hkeys hknown
  have hlines : lines ≠ [] := by
    rintro rfl
    obtain ⟨f, fields, rfl⟩ := List.exists_cons_of_ne_nil hne
    simp [entry] at hwritten
  have hallowed : ∀ e ∈ lines, ∀ c ∈ e.written, isAllowed c = true := by
    intro e he c hc
    have hmem : c ∈ fields.flatMap fun f => entry f.1 f.2 := by
      rw [← hwritten]
      exact List.mem_flatMap_of_mem he hc
    obtain ⟨f, hf, hc⟩ := List.mem_flatMap.1 hmem
    exact isAllowed_of_mem_entry (hkeys f hf) hc
  refine ⟨⟨.mapping none none (lines.map Line.node), true⟩, ?_, rfl, none, none, _, fields, rfl,
    .refl _, hlists _⟩
  have htokens : Token.ofText (mapping fields).toList
      = .blockMappingStart :: (lines.flatMap Line.tokens ++ [.blockEnd, .streamEnd]) := by
    rw [mapping, String.toList_ofList, ← hwritten]
    exact Token.ofText_lines hlines hread hallowed
  rw [ofText, htokens]
  exact ofTokens_lines

end ActionRegistry.Yaml
