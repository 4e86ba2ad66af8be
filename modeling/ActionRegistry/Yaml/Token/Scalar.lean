import ActionRegistry.Yaml.Cursor
import ActionRegistry.Yaml.Token

/-!
# The texts of scalars

A plain or quoted scalar may go over several lines, and the line ends between its words are folded:
one line end counts as a space and each further one as a line feed. A block scalar keeps its lines,
or folds those that start with no blank. Each function tells the text and the place after it, and
has no result where the rules are broken.
-/

namespace ActionRegistry.Yaml.Token

/-! ### What stands between words -/

/-- The blanks and line ends between two words. -/
structure Gap where
  /-- The blanks before the first line end. -/
  blanks : List Char
  isBroken : Bool
  /-- The first line end, or nothing if it was escaped. -/
  firstBreak : List Char
  moreBreaks : List Char

namespace Gap

def none : Gap := ⟨[], false, [], []⟩

def escapedBreak : Gap := ⟨[], true, [], []⟩

def text (g : Gap) : List Char :=
  if !g.isBroken then g.blanks
  else if g.firstBreak = ['\n'] then
    if g.moreBreaks.isEmpty then [' '] else g.moreBreaks
  else g.firstBreak ++ g.moreBreaks

/-- The rest of a gap. A tab may not stand left of the margin at the start of a line. -/
def scan (margin : Nat) : Nat → Gap → Cursor → Option (Gap × Cursor)
  | 0, g, c => some (g, c)
  | fuel + 1, g, c =>
    match c.peek with
    | Option.none => some (g, c)
    | some x =>
      if isBlank x then
        if g.isBroken && x == '\t' && c.column < margin then Option.none
        else if g.isBroken then scan margin fuel g (c.skip 1)
        else scan margin fuel { g with blanks := g.blanks ++ [x] } (c.skip 1)
      else if isBreak x then
        let (lineEnd, after) := c.takeBreak
        if g.isBroken then scan margin fuel { g with moreBreaks := g.moreBreaks ++ lineEnd } after
        else scan margin fuel ⟨[], true, lineEnd, []⟩ after
      else some (g, c)

end Gap

/-! ### Plain scalars -/

/-- The brackets and the comma, which end a word inside brackets. -/
def isFlowIndicator (c : Char) : Bool :=
  c == ',' || c == '[' || c == ']' || c == '\x7b' || c == '\x7d'

/-- A word of a plain scalar. Inside brackets a colon may not stand before a bracket, a comma or a
question mark. -/
def plainWord (inFlow : Bool) : List Char → Option (List Char)
  | [] => some []
  | x :: rest =>
    if isBlank x || isBreak x then some []
    else if inFlow && x == ':' && rest.head?.any (fun y => isFlowIndicator y || y == '?') then none
    else if (x == ':' && endsWord rest.head?) || (inFlow && isFlowIndicator x) then some []
    else (plainWord inFlow rest).map (x :: ·)

/-- A plain scalar: its text, whether its last line end is behind it, and the place after it. -/
structure Plain where
  text : List Char
  endsLine : Bool
  after : Cursor

def plainRest (inFlow : Bool) (margin : Nat) : Nat → Gap → Cursor → Option Plain
  | 0, g, c => some ⟨[], g.isBroken, c⟩
  | fuel + 1, g, c =>
    if c.atDocumentMarker || c.sees '#' then some ⟨[], g.isBroken, c⟩
    else do
      let word ← plainWord inFlow c.rest
      let c := c.skip word.length
      let (text, g) := if word.isEmpty then ([], g) else (g.text ++ word, Gap.none)
      if c.peek.any fun x => isBlank x || isBreak x then
        let (g, c) ← Gap.scan margin c.rest.length g c
        if !inFlow && c.column < margin then some ⟨text, g.isBroken, c⟩
        else (plainRest inFlow margin fuel g c).map fun p => { p with text := text ++ p.text }
      else some ⟨text, g.isBroken, c⟩

/-- A plain scalar, of which every further line starts at the margin or right of it. -/
def plain (inFlow : Bool) (margin : Nat) (c : Cursor) : Option Plain :=
  plainRest inFlow margin (c.rest.length + 1) Gap.none c

/-! ### Quoted scalars -/

def hexValue? (c : Char) : Option Nat :=
  if c.isDigit then some (c.toNat - 48)
  else if 'a' ≤ c && c ≤ 'f' then some (c.toNat - 87)
  else if 'A' ≤ c && c ≤ 'F' then some (c.toNat - 55)
  else none

def hexNumber? (digits : List Char) : Option Nat :=
  digits.foldlM (fun n c => (hexValue? c).map (n * 16 + ·)) 0

/-- The code point that a letter after a backslash stands for. -/
def escaped? (c : Char) : Option Nat :=
  match c with
  | '0' => some 0
  | 'a' => some 7
  | 'b' => some 8
  | 't' => some 9
  | '\t' => some 9
  | 'n' => some 10
  | 'v' => some 11
  | 'f' => some 12
  | 'r' => some 13
  | 'e' => some 27
  | ' ' => some 32
  | '"' => some 34
  | '/' => some 47
  | '\\' => some 92
  | 'N' => some 0x85
  | '_' => some 0xA0
  | 'L' => some 0x2028
  | 'P' => some 0x2029
  | _ => none

/-- How many hexadecimal digits follow a letter after a backslash. -/
def escapeDigits? (c : Char) : Option Nat :=
  match c with
  | 'x' => some 2
  | 'u' => some 4
  | 'U' => some 8
  | _ => none

/-- A character after its backslash: the character and how many characters spell it. -/
def escape? (rest : List Char) : Option (Char × Nat) := do
  let (letter, rest) ←
    match rest with
    | [] => none
    | letter :: rest => some (letter, rest)
  match escapeDigits? letter with
  | none => (escaped? letter).map fun n => (Char.ofNat n, 1)
  | some count =>
    let digits := rest.take count
    if digits.length < count then none
    else
      let n ← hexNumber? digits
      if n.isValidChar then some (Char.ofNat n, 1 + count) else none

inductive WordEnd where
  /-- At a blank, a line end, the closing quote or the end of the text. -/
  | plain
  | escapedBreak
  deriving DecidableEq

/-- A word of a quoted scalar: its text, the place after it and how it ends. -/
def quotedWord (single : Bool) : Nat → Cursor → Option (List Char × Cursor × WordEnd)
  | 0, c => some ([], c, .plain)
  | fuel + 1, c =>
    match c.rest with
    | [] => some ([], c, .plain)
    | x :: rest =>
      if isBlank x || isBreak x then some ([], c, .plain)
      else if single && x == '\x27' && rest.head? == some '\x27' then
        (quotedWord single fuel (c.skip 2)).map fun (w, e) => ('\x27' :: w, e)
      else if x == (if single then '\x27' else '"') then some ([], c, .plain)
      else if !single && x == '\\' then
        if rest.head?.any isBreak then some ([], (c.skip 1).takeBreak.2, .escapedBreak)
        else do
          let (y, n) ← escape? rest
          let (w, e) ← quotedWord single fuel (c.skip (1 + n))
          pure (y :: w, e)
      else (quotedWord single fuel (c.skip 1)).map fun (w, e) => (x :: w, e)

/-- The rest of a quoted scalar: its text and the place after the closing quote. -/
def quotedRest (single : Bool) : Nat → Cursor → Option (List Char × Cursor)
  | 0, _ => none
  | fuel + 1, c =>
    if c.atDocumentMarker || c.rest.isEmpty then none
    else do
      let (word, c, wordEnd) ← quotedWord single c.rest.length c
      if c.sees (if single then '\x27' else '"') then some (word, c.skip 1)
      else
        let before := if wordEnd = .escapedBreak then Gap.escapedBreak else Gap.none
        let (g, c) ← Gap.scan 0 c.rest.length before c
        let (text, c) ← quotedRest single fuel c
        pure (word ++ g.text ++ text, c)

def quoted (single : Bool) (c : Cursor) : Option (List Char × Cursor) :=
  quotedRest single (c.rest.length + 1) c

/-! ### Block scalars -/

/-- What becomes of the line ends after the last line of a block scalar. -/
inductive Chomping where
  /-- All are dropped. -/
  | strip
  /-- The first is kept. -/
  | clip
  /-- All are kept. -/
  | keep
  deriving DecidableEq

def chomping? : Option Char → Option Chomping
  | some '-' => some .strip
  | some '+' => some .keep
  | _ => none

/-- The indicators after the start of a block scalar, in either order: chomping, the depth of the
lines, and the place after. A depth of zero is refused. -/
def blockHeader (c : Cursor) : Option (Chomping × Nat × Cursor) := do
  let depth? (c : Cursor) : Option (Option Nat) :=
    match c.peek with
    | some x =>
      if x.isDigit then (if x == '0' then none else some (some (x.toNat - 48))) else some none
    | none => some none
  match chomping? c.peek with
  | some chomping =>
    let c := c.skip 1
    match ← depth? c with
    | some n => pure (chomping, n, c.skip 1)
    | none => pure (chomping, 0, c)
  | none =>
    match ← depth? c with
    | some n =>
      let c := c.skip 1
      match chomping? c.peek with
      | some chomping => pure (chomping, n, c.skip 1)
      | none => pure (.clip, n, c)
    | none => pure (.clip, 0, c)

/-- The line ends before a line with text, the greatest column reached, and the place after the
indentation, which holds no tab. A depth of zero is one not yet known. -/
def emptyLines (depth : Nat) : Nat → Nat → Cursor → Option (List Char × Nat × Cursor)
  | 0, widest, c => some ([], widest, c)
  | fuel + 1, widest, c =>
    let spaces := (c.rest.takeWhile (· == ' ')).length
    let c := c.skip (if depth = 0 then spaces else min spaces (depth - c.column))
    let widest := max widest c.column
    if (depth = 0 || c.column < depth) && c.sees '\t' then none
    else if c.peek.any isBreak then
      let (lineEnd, after) := c.takeBreak
      (emptyLines depth fuel widest after).map fun (ends, w, c) => (lineEnd ++ ends, w, c)
    else some ([], widest, c)

/-- What a line end and the empty lines after it count as between two lines with text. -/
def blockGap (fold : Bool) (lineEnd empties : List Char) : List Char :=
  if fold && lineEnd = ['\n'] then (if empties.isEmpty then [' '] else empties)
  else lineEnd ++ empties

/-- The lines of a block scalar from a line on: the line end and the empty lines before it are
given, and whether the line before starts with a blank. -/
def blockLines (literal : Bool) (chomping : Chomping) (depth : Nat) :
    Nat → (lineEnd empties : List Char) → Bool → Cursor → Option (List Char × Cursor)
  | 0, _, _, _, _ => none
  | fuel + 1, lineEnd, empties, afterBlank, c =>
    if c.column = depth && !c.rest.isEmpty then do
      let blank := c.peek.any isBlank
      let (line, c) := c.takeWhile fun x => !isBreak x
      let (nextEnd, c) := c.takeBreak
      let (nextEmpties, _, c) ← emptyLines depth (c.rest.length + 1) 0 c
      let (text, c) ← blockLines literal chomping depth fuel nextEnd nextEmpties blank c
      pure (blockGap (!literal && !afterBlank && !blank) lineEnd empties ++ line ++ text, c)
    else
      match chomping with
      | .strip => some ([], c)
      | .clip => some (lineEnd, c)
      | .keep => some (lineEnd ++ empties, c)

/-- A block scalar after its first character, inside a block whose content starts at the margin. -/
def block (literal : Bool) (margin : Nat) (c : Cursor) : Option (List Char × Cursor) := do
  let (chomping, given, c) ← blockHeader c
  let c ← c.skipRestOfLine
  let known := if given = 0 then 0 else max margin 1 - 1 + given
  let (empties, widest, c) ← emptyLines known (c.rest.length + 1) 0 c
  let depth := if known = 0 then max widest (max margin 1) else known
  blockLines literal chomping depth (c.rest.length + 1) [] empties false c

end ActionRegistry.Yaml.Token
