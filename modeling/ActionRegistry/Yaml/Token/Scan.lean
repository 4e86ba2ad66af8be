import ActionRegistry.Yaml.Token.Property

/-!
# From a text to its tokens

Whether a scalar is a key is known only when the colon after it is seen, and the token that says so
belongs before the scalar. So tokens wait in a queue as long as a key may still start at the first
of them. A place where a key may start lapses at the end of its line and after 1024 characters;
where a key must start, its lapse breaks the rules.

The tokens of a text that breaks the rules are those that left the queue before.
-/

namespace ActionRegistry.Yaml

structure KeyPlace where
  /-- The number of the token that the key would start with. -/
  number : Nat
  index : Nat
  line : Nat
  column : Nat
  /-- Whether a key must start there. -/
  isRequired : Bool

def KeyPlace.hasLapsed (p : KeyPlace) (c : Cursor) : Bool :=
  p.line < c.line || p.index + 1024 < c.index

/-- The state between two tokens. -/
structure Scanner where
  cursor : Cursor
  /-- The tokens that wait, the first of them first. -/
  queue : List Token
  /-- How many tokens have left the queue. -/
  released : Nat
  allowsKey : Bool
  /-- The column right of the indentation of the innermost block, zero outside of all blocks. -/
  margin : Nat
  /-- The margins of the blocks around it, the innermost first. -/
  outerMargins : List Nat
  /-- Where a key may start on the innermost level. -/
  place : Option KeyPlace
  /-- Where a key may start on the levels around it, one for each bracket that is open. -/
  outerPlaces : List (Option KeyPlace)

namespace Scanner

def start (text : List Char) : Scanner :=
  ⟨.start text, [], 0, true, 0, [], none, []⟩

def inFlow (s : Scanner) : Bool := !s.outerPlaces.isEmpty

def push (s : Scanner) (token : Token) : Scanner := { s with queue := s.queue ++ [token] }

/-- A state with a token put in before the token of a number. -/
def insertAt (s : Scanner) (number : Nat) (token : Token) : Scanner :=
  let before := number - s.released
  { s with queue := s.queue.take before ++ token :: s.queue.drop before }

/-- A state with a token in the queue for some characters on one line. -/
def pushFor (s : Scanner) (token : Token) (count : Nat) : Scanner :=
  { s.push token with cursor := s.cursor.skip count }

/-! ### Where a key may start -/

/-- A place unless it has lapsed; there is no result if a key must start there. -/
def stillOpen (c : Cursor) : Option KeyPlace → Option (Option KeyPlace)
  | none => some none
  | some p =>
    if p.hasLapsed c then (if p.isRequired then none else some none) else some (some p)

def dropLapsed (s : Scanner) : Option Scanner := do
  let place ← stillOpen s.cursor s.place
  let outerPlaces ← s.outerPlaces.mapM (stillOpen s.cursor)
  pure { s with place, outerPlaces }

def dropPlace (s : Scanner) : Option Scanner :=
  if s.place.any (·.isRequired) then none else some { s with place := none }

/-- A state in which a key may start at the cursor, if one is allowed. -/
def savePlace (s : Scanner) : Option Scanner :=
  if !s.allowsKey then some s
  else do
    let s ← s.dropPlace
    let c := s.cursor
    let required := !s.inFlow && s.margin == c.column + 1
    let number := s.released + s.queue.length
    some { s with place := some ⟨number, c.index, c.line, c.column, required⟩ }

/-! ### Indentation -/

/-- A state in a block at a column. The token of a new block goes before the token of a number, or
else to the end of the queue. -/
def enterBlock (s : Scanner) (column : Nat) (token : Token) (number : Option Nat) : Scanner :=
  if s.inFlow || column < s.margin then s
  else
    let s := { s with margin := column + 1, outerMargins := s.margin :: s.outerMargins }
    match number with
    | none => s.push token
    | some n => s.insertAt n token

/-- The margins after the blocks right of a margin have ended, and how many did. -/
def leave (margin : Nat) (current : Nat) : List Nat → Nat × List Nat × Nat
  | [] => (current, [], 0)
  | outer :: rest =>
    if margin < current then
      let (m, ms, n) := leave margin outer rest
      (m, ms, n + 1)
    else (current, outer :: rest, 0)

/-- A state in which the blocks right of a margin have ended. -/
def leaveBlocks (s : Scanner) (margin : Nat) : Scanner :=
  if s.inFlow then s
  else
    let (m, ms, n) := leave margin s.margin s.outerMargins
    { s with margin := m, outerMargins := ms, queue := s.queue ++ List.replicate n .blockEnd }

/-! ### Blanks and comments -/

/-- The place of the next token, and whether a line end was passed. A tab counts as a blank inside
brackets and where no key may start. -/
def nextPlace (inFlow : Bool) : Nat → Bool → Cursor → Cursor × Bool
  | 0, allowsKey, c => (c, allowsKey)
  | fuel + 1, allowsKey, c =>
    let c := if c.index = 0 && c.sees '\uFEFF' then c.skip 1 else c
    let c := c.skipWhile fun x => x == ' ' || ((inFlow || !allowsKey) && x == '\t')
    let c := if c.sees '#' then c.skipWhile fun x => !isBreak x else c
    if c.peek.any isBreak then nextPlace inFlow fuel (allowsKey || !inFlow) c.takeBreak.2
    else (c, allowsKey)

/-! ### Tokens -/

/-- The end of the text, which counts as the start of a line. -/
def atEnd (s : Scanner) : Option Scanner := do
  let s ← (s.leaveBlocks 0).dropPlace
  let c := s.cursor
  let cursor := if c.column = 0 then c else ⟨[], c.index, c.line + 1, 0⟩
  some ({ s with allowsKey := false, cursor }.push .streamEnd)

/-- A directive or a document marker, before which all blocks end. -/
def atDocument (s : Scanner) (read : Cursor → Option (Token × Cursor)) : Option Scanner := do
  let s ← (s.leaveBlocks 0).dropPlace
  let (token, cursor) ← read s.cursor
  some { s.push token with allowsKey := false, cursor }

def atOpening (s : Scanner) (token : Token) : Option Scanner := do
  let s ← s.savePlace
  let s := s.pushFor token 1
  some { s with allowsKey := true, place := none, outerPlaces := s.place :: s.outerPlaces }

def atClosing (s : Scanner) (token : Token) : Option Scanner := do
  let s ← s.dropPlace
  let s :=
    match s.outerPlaces with
    | [] => s
    | outer :: rest => { s with place := outer, outerPlaces := rest }
  some { s.pushFor token 1 with allowsKey := false }

def atFlowEntry (s : Scanner) : Option Scanner := do
  let s ← s.dropPlace
  some { s.pushFor .flowEntry 1 with allowsKey := true }

def atBlockEntry (s : Scanner) : Option Scanner := do
  if !s.inFlow && !s.allowsKey then none
  let s ← (s.enterBlock s.cursor.column .blockSequenceStart none).dropPlace
  some { s.pushFor .blockEntry 1 with allowsKey := true }

def atKey (s : Scanner) : Option Scanner := do
  if !s.inFlow && !s.allowsKey then none
  let s ← (s.enterBlock s.cursor.column .blockMappingStart none).dropPlace
  some { s.pushFor .key 1 with allowsKey := !s.inFlow }

def atValue (s : Scanner) : Option Scanner :=
  match s.place with
  | some p =>
    let s := (s.insertAt p.number .key).enterBlock p.column .blockMappingStart (some p.number)
    some { s.pushFor .value 1 with place := none, allowsKey := false }
  | none =>
    if !s.inFlow && !s.allowsKey then none
    else
      let s := s.enterBlock s.cursor.column .blockMappingStart none
      some { s.pushFor .value 1 with allowsKey := !s.inFlow }

/-- An anchor, a tag or a scalar on one line, at which a key may start. -/
def atWord (s : Scanner) (read : Cursor → Option (Token × Cursor)) : Option Scanner := do
  let s ← s.savePlace
  let (token, cursor) ← read s.cursor
  some { s.push token with allowsKey := false, cursor }

def atPlain (s : Scanner) : Option Scanner := do
  let s ← s.savePlace
  let p ← Token.plain s.inFlow s.margin s.cursor
  some { s.push (.scalar p.text .plain) with allowsKey := p.endsLine, cursor := p.after }

def atBlockScalar (s : Scanner) (style : ScalarStyle) : Option Scanner := do
  let s ← s.dropPlace
  let (text, cursor) ← Token.block (style == .literal) s.margin (s.cursor.skip 1)
  some { s.push (.scalar text style) with allowsKey := true, cursor }

/-- The marks that start no plain scalar. -/
def isIndicator (c : Char) : Bool :=
  "-?:,[]\x7b\x7d#&*!|>\"%@".toList.contains c || c == '\x27' || c == '\x60'

/-- Whether a plain scalar may start with a character before another. -/
def startsPlain (inFlow : Bool) (c : Char) (next : Option Char) : Bool :=
  !(isIndicator c || isBlank c) || (c == '-' && !next.any isBlank)
    || (!inFlow && (c == '?' || c == ':') && !endsWord next)

/-- The token at the cursor, which is at no blank but a tab where a key may start. -/
def readToken (s : Scanner) : Option Scanner :=
  let c := s.cursor
  match c.peek with
  | none => s.atEnd
  | some x =>
    let next := c.peekAt 1
    if c.column = 0 && x == '%' then s.atDocument fun c => Token.directive (c.skip 1)
    else if c.atMarker '-' then s.atDocument fun c => some (.documentStart, c.skip 3)
    else if c.atMarker '.' then s.atDocument fun c => some (.documentEnd, c.skip 3)
    else if x == '[' then s.atOpening .flowSequenceStart
    else if x == '\x7b' then s.atOpening .flowMappingStart
    else if x == ']' then s.atClosing .flowSequenceEnd
    else if x == '\x7d' then s.atClosing .flowMappingEnd
    else if x == ',' then s.atFlowEntry
    else if x == '-' && endsWord next then s.atBlockEntry
    else if x == '?' && (s.inFlow || endsWord next) then s.atKey
    else if x == ':' && (s.inFlow || endsWord next) then s.atValue
    else if x == '*' then
      s.atWord fun c => (Token.anchorName (c.skip 1)).map fun (name, c) => (.reference name, c)
    else if x == '&' then
      s.atWord fun c => (Token.anchorName (c.skip 1)).map fun (name, c) => (.anchor name, c)
    else if x == '!' then s.atWord (Token.tagToken s.inFlow)
    else if x == '|' && !s.inFlow then s.atBlockScalar .literal
    else if x == '>' && !s.inFlow then s.atBlockScalar .folded
    else if x == '\x27' then
      s.atWord fun c =>
        (Token.quoted true (c.skip 1)).map fun (text, c) => (.scalar text .singleQuoted, c)
    else if x == '"' then
      s.atWord fun c =>
        (Token.quoted false (c.skip 1)).map fun (text, c) => (.scalar text .doubleQuoted, c)
    else if startsPlain s.inFlow x next then s.atPlain
    else none

/-- A state with at least one more token in the queue. -/
def fetch (s : Scanner) : Option Scanner := do
  let (cursor, allowsKey) := nextPlace s.inFlow (s.cursor.rest.length + 1) s.allowsKey s.cursor
  let s ← { s with cursor, allowsKey }.dropLapsed
  (s.leaveBlocks (s.cursor.column + 1)).readToken

/-- Whether a key may start at the first token of the queue. -/
def waits (s : Scanner) : Bool :=
  (s.place :: s.outerPlaces).any fun place => place.any (·.number == s.released)

def run : Nat → Scanner → List Token
  | 0, _ => []
  | fuel + 1, s =>
    match s.queue with
    | [] => (s.fetch).elim [] (run fuel)
    | token :: queue =>
      match s.dropLapsed with
      | none => []
      | some s =>
        if s.waits then (s.fetch).elim [] (run fuel)
        else if token = .streamEnd then [token]
        else token :: run fuel { s with queue, released := s.released + 1 }

end Scanner

/-- The tokens of a text. They end with the end of the text, unless the rules are broken before. -/
def Token.ofText (text : List Char) : List Token :=
  if text.all isAllowed then Scanner.run (8 * text.length + 16) (.start text) else []

end ActionRegistry.Yaml
