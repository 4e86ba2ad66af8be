import ActionRegistry.Json.Value

/-!
# Reading JSON

A text is cut into tokens, and the tokens are folded over a stack of the arrays and objects that are
still open. So reading needs no recursion on the nesting, and the greatest depth is the greatest
height of the stack. A text that is not JSON has no value; why it has none is not told.
-/

namespace ActionRegistry.Json

inductive Token where
  | openArray
  | closeArray
  | openObject
  | closeObject
  | comma
  | colon
  /-- A text, a number or one of the three words. -/
  | scalar (value : Json)

namespace Token

def hexDigit? (c : Char) : Option Nat :=
  if c.isDigit then some (c.toNat - 48)
  else if 'a' ≤ c && c ≤ 'f' then some (c.toNat - 87)
  else if 'A' ≤ c && c ≤ 'F' then some (c.toNat - 55)
  else none

def hex4? (a b c d : Char) : Option Nat := do
  let a ← hexDigit? a
  let b ← hexDigit? b
  let c ← hexDigit? c
  let d ← hexDigit? d
  pure (((a * 16 + b) * 16 + c) * 16 + d)

def escape? (c : Char) : Option Char :=
  match c with
  | '"' => some '"'
  | '\\' => some '\\'
  | '/' => some '/'
  | 'b' => some '\x08'
  | 'f' => some '\x0c'
  | 'n' => some '\n'
  | 'r' => some '\r'
  | 't' => some '\t'
  | _ => none

/-- The rest of a string after its opening quote, and what follows it. Two escapes may spell the
halves of one character; a half alone is refused. -/
def stringBody : List Char → Option (List Char × List Char)
  | [] => none
  | '"' :: rest => some ([], rest)
  | '\\' :: 'u' :: a :: b :: c :: d :: rest =>
    match hex4? a b c d with
    | none => none
    | some n =>
      if 0xD800 ≤ n && n < 0xDC00 then
        match rest with
        | '\\' :: 'u' :: a :: b :: c :: d :: rest =>
          match hex4? a b c d with
          | none => none
          | some low =>
            if 0xDC00 ≤ low && low < 0xE000 then
              (stringBody rest).map fun (s, after) =>
                (Char.ofNat (0x10000 + (n - 0xD800) * 0x400 + (low - 0xDC00)) :: s, after)
            else none
        | _ => none
      else if 0xDC00 ≤ n && n < 0xE000 then none
      else (stringBody rest).map fun (s, after) => (Char.ofNat n :: s, after)
  | '\\' :: c :: rest =>
    match escape? c with
    | none => none
    | some e => (stringBody rest).map fun (s, after) => (e :: s, after)
  | c :: rest =>
    if c.toNat < 0x20 || c == '\\' then none
    else (stringBody rest).map fun (s, after) => (c :: s, after)

def digitValue (c : Char) : Nat := c.toNat - 48

/-- Digits appended to a number as long as it fits sixty-four bits: the number, how many were
appended and how many were not. -/
def appendDigits (n : Nat) : List Char → Nat × Nat × Nat
  | [] => (n, 0, 0)
  | c :: rest =>
    let next := n * 10 + digitValue c
    if fitsUnsigned 64 next then
      let (m, used, left) := appendDigits next rest
      (m, used + 1, left)
    else (n, 0, rest.length + 1)

def exponentPart (cs : List Char) : Option (Int × List Char) :=
  let (minus, cs) :=
    match cs with
    | '-' :: rest => (true, rest)
    | '+' :: rest => (false, rest)
    | _ => (false, cs)
  let digits := cs.takeWhile Char.isDigit
  if digits.isEmpty then none
  else
    let n := digits.foldl (fun n c => n * 10 + digitValue c) 0
    some (if minus then -(n : Int) else n, cs.drop digits.length)

/-- A number from its digits and its exponent. Digits that do not fit sixty-four bits count as zeros
before the point and not at all behind it. -/
def makeNumber (negative : Bool) (whole : List Char) (fraction : List Char)
    (exponent : Option Int) : Option Number :=
  let (n, _, left) := appendDigits 0 whole
  let integer : Int := if negative then -(n : Int) else n
  let isInteger := fraction.isEmpty && exponent.isNone && left == 0 &&
    (!negative || (n != 0 && fitsSigned 64 integer))
  if isInteger then some (.integer integer)
  else
    let (m, used, _) := appendDigits n fraction
    let x := Binary64.stepwise negative ⟨m, (left : Int) - used + exponent.getD 0⟩
    if x.isFinite then some (.float x) else none

def numberPart (cs : List Char) : Option (Number × List Char) := do
  let (negative, cs) :=
    match cs with
    | '-' :: rest => (true, rest)
    | _ => (false, cs)
  let whole := cs.takeWhile Char.isDigit
  let cs := cs.drop whole.length
  if whole.isEmpty || (whole.head? == some '0' && 1 < whole.length) then none
  let (fraction, cs) ←
    match cs with
    | '.' :: rest =>
      let digits := rest.takeWhile Char.isDigit
      if digits.isEmpty then none else some (digits, rest.drop digits.length)
    | _ => some ([], cs)
  let (exponent, cs) ←
    match cs with
    | c :: rest =>
      if c == 'e' || c == 'E' then (exponentPart rest).map fun (n, after) => (some n, after)
      else some (none, cs)
    | [] => some (none, cs)
  let n ← makeNumber negative whole fraction exponent
  pure (n, cs)

def isSpace (c : Char) : Bool :=
  c == ' ' || c == '\n' || c == '\t' || c == '\r'

/-- The first token of a list that is not empty and starts with no blank, and what follows it. -/
def next? : List Char → Option (Token × List Char)
  | '[' :: rest => some (openArray, rest)
  | ']' :: rest => some (closeArray, rest)
  | '\x7b' :: rest => some (openObject, rest)
  | '\x7d' :: rest => some (closeObject, rest)
  | ',' :: rest => some (comma, rest)
  | ':' :: rest => some (colon, rest)
  | 'n' :: 'u' :: 'l' :: 'l' :: rest => some (scalar null, rest)
  | 't' :: 'r' :: 'u' :: 'e' :: rest => some (scalar (bool true), rest)
  | 'f' :: 'a' :: 'l' :: 's' :: 'e' :: rest => some (scalar (bool false), rest)
  | '"' :: rest =>
    (stringBody rest).map fun (s, after) => (scalar (string (String.ofList s)), after)
  | cs => (numberPart cs).map fun (n, after) => (scalar (number n), after)

/-- The tokens of a list, of which every one takes at least one character. -/
def scan : Nat → List Char → Option (List Token)
  | 0, cs => if cs.all isSpace then some [] else none
  | fuel + 1, cs =>
    match cs.dropWhile isSpace with
    | [] => some []
    | cs =>
      match next? cs with
      | none => none
      | some (token, rest) => (scan fuel rest).map (token :: ·)

end Token

/-- An array or object that is still open, with what it holds so far, the latest first. -/
inductive Frame where
  | array (items : List Json)
  | object (fields : List (String × Json))
  /-- An object in which a name waits for its value. -/
  | field (fields : List (String × Json)) (name : String)

inductive Phase where
  | value
  /-- A value, or the end of the array just opened. -/
  | firstItem
  /-- A name, or the end of the object just opened. -/
  | firstName
  | name
  | colon
  /-- A comma, or the end of what is open. -/
  | separator
  /-- Nothing: the value is complete. -/
  | complete (value : Json)

structure Reader where
  /-- What is open, the innermost first. -/
  frames : List Frame
  phase : Phase

namespace Reader

/-- The greatest depth to which arrays and objects may nest. -/
def greatestDepth : Nat := 127

def start : Reader := ⟨[], .value⟩

def put (frames : List Frame) (v : Json) : Option Reader :=
  match frames with
  | [] => some ⟨[], .complete v⟩
  | .array items :: outer => some ⟨.array (v :: items) :: outer, .separator⟩
  | .field fields name :: outer => some ⟨.object ((name, v) :: fields) :: outer, .separator⟩
  | .object _ :: _ => none

/-- A reader after the end of what is open innermost. -/
def close (frames : List Frame) (token : Token) : Option Reader :=
  match frames, token with
  | .array items :: outer, .closeArray => put outer (.array items.reverse)
  | .object fields :: outer, .closeObject => put outer (.ofFields fields.reverse)
  | _, _ => none

/-- A reader after the start of an array or object. -/
def openFrame (frames : List Frame) (frame : Frame) (phase : Phase) : Option Reader :=
  if frames.length < greatestDepth then some ⟨frame :: frames, phase⟩ else none

/-- A reader after a token at which a value starts. -/
def startValue (frames : List Frame) : Token → Option Reader
  | .scalar v => put frames v
  | .openArray => openFrame frames (.array []) .firstItem
  | .openObject => openFrame frames (.object []) .firstName
  | _ => none

def startField (frames : List Frame) : Token → Option Reader
  | .scalar (.string name) =>
    match frames with
    | .object fields :: outer => some ⟨.field fields name :: outer, .colon⟩
    | _ => none
  | _ => none

def step (r : Reader) (token : Token) : Option Reader :=
  match r.phase, token with
  | .value, token => startValue r.frames token
  | .firstItem, .closeArray => close r.frames token
  | .firstItem, token => startValue r.frames token
  | .firstName, .closeObject => close r.frames token
  | .firstName, token => startField r.frames token
  | .name, token => startField r.frames token
  | .colon, .colon => some { r with phase := .value }
  | .colon, _ => none
  | .separator, .comma =>
    match r.frames with
    | .array _ :: _ => some { r with phase := .value }
    | _ => some { r with phase := .name }
  | .separator, token => close r.frames token
  | .complete _, _ => none

end Reader

def read? (s : String) : Option Json := do
  let chars := s.toList
  let tokens ← Token.scan chars.length chars
  let last ← tokens.foldlM Reader.step Reader.start
  match last.phase with
  | .complete v => some v
  | _ => none

end ActionRegistry.Json
