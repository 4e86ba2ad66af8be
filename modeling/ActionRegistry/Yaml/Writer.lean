import ActionRegistry.Yaml.Scalar

/-!
# Writing YAML

A text is written plain where that reads back as the same text, and else as a literal block if it
has line feeds, or quoted. What cannot stand in a document is escaped between double quotes.
-/

namespace ActionRegistry.Yaml.Writer

/-! ### What forms a text allows -/

/-- Whether a character may stand in a document unescaped. -/
def isPrintable (c : Char) : Bool :=
  let n := c.toNat
  n == 10 || (0x20 ≤ n && n ≤ 0x7E) || (0xA0 ≤ n && n ≤ 0xFFFD && n != 0xFEFF) || 0x10000 ≤ n

/-- Whether a character cannot start a plain text before another. -/
def startsMarkup (c : Char) (next : Option Char) : Bool :=
  "#,[]\x7b\x7d&*!|>\"%@".toList.contains c || c == '\x27' || c == '\x60'
    || ((c == '?' || c == ':' || c == '-') && endsWord next)

/-- Whether a plain text would end or become a key between its characters: at a colon that ends a
word or a number sign that starts one. -/
def hasMarkup : List Char → Bool
  | a :: b :: rest =>
    (b == ':' && endsWord rest.head?) || (b == '#' && endsWord (some a)) || hasMarkup (b :: rest)
  | _ => false

def startsAsMarker (cs : List Char) : Bool :=
  cs.take 3 == ['-', '-', '-'] || cs.take 3 == ['.', '.', '.']

def hasPair (p q : Char → Bool) : List Char → Bool
  | a :: b :: rest => (p a && q b) || hasPair p q (b :: rest)
  | _ => false

def isSpace (c : Char) : Bool := c == ' '

/-- Whether a text has a line end after a space, or a character that must be escaped. -/
def needsEscapes (cs : List Char) : Bool :=
  hasPair isSpace isBreak cs || !cs.all isPrintable

/-- Whether a text may be quoted by apostrophes: then no line starts with a space. -/
def allowsApostrophes (cs : List Char) : Bool := !needsEscapes cs && !hasPair isBreak isSpace cs

/-- Whether a text may be a literal block: then it does not end in a space. -/
def allowsBlock (cs : List Char) : Bool := !needsEscapes cs && !cs.getLast?.any isSpace

def allowsPlain (cs : List Char) : Bool :=
  match cs with
  | [] => true
  | c :: rest =>
    allowsApostrophes cs && !cs.any isBreak && !isSpace c && !cs.getLast?.any isSpace
      && !startsMarkup c rest.head? && !startsAsMarker cs && !hasMarkup cs

/-! ### The forms of a text -/

def indentation : List Char := [' ', ' ']

/-- The characters of a text between apostrophes; they are indented after a line end. -/
def apostropheBody : (afterBreak : Bool) → List Char → List Char
  | afterBreak, [] => if afterBreak then indentation else []
  | afterBreak, c :: cs =>
    if isBreak c then c :: apostropheBody true cs
    else
      (if afterBreak then indentation else []) ++ (if c == '\x27' then [c, c] else [c])
        ++ apostropheBody false cs

def withApostrophes (cs : List Char) : List Char := '\x27' :: apostropheBody false cs ++ ['\x27']

/-- The digits of a number in upper-case hexadecimal, at least so many. -/
def upperHex (width n : Nat) : List Char :=
  let digits := (Nat.toDigits 16 n).map Char.toUpper
  List.replicate (width - digits.length) '0' ++ digits

def escapeOf (c : Char) : List Char :=
  match c.toNat with
  | 0 => ['0']
  | 7 => ['a']
  | 8 => ['b']
  | 9 => ['t']
  | 10 => ['n']
  | 11 => ['v']
  | 12 => ['f']
  | 13 => ['r']
  | 27 => ['e']
  | 34 => ['"']
  | 92 => ['\\']
  | 0x85 => ['N']
  | 0x2028 => ['L']
  | 0x2029 => ['P']
  | n =>
    if n < 0x100 then 'x' :: upperHex 2 n
    else if n < 0x10000 then 'u' :: upperHex 4 n
    else 'U' :: upperHex 8 n

def withQuotes (cs : List Char) : List Char :=
  let piece (c : Char) : List Char :=
    if !isPrintable c || isBreak c || c == '"' || c == '\\' then '\\' :: escapeOf c else [c]
  '"' :: cs.flatMap piece ++ ['"']

/-- The lines of a literal block; a line is indented unless it is empty. -/
def blockBody : (afterBreak : Bool) → List Char → List Char
  | _, [] => []
  | afterBreak, c :: cs =>
    if isBreak c then c :: blockBody true cs
    else (if afterBreak then indentation else []) ++ c :: blockBody false cs

/-- What is said at the start of a literal block about the line ends after its last line. -/
def chompingHint (cs : List Char) : List Char :=
  match cs.reverse with
  | [] => ['-']
  | last :: before =>
    if !isBreak last then ['-']
    else if before.head?.all isBreak then ['+']
    else []

/-- A text as a literal block. The depth of its lines is told if it starts with a space or a line
end. -/
def asBlock (cs : List Char) : List Char :=
  let depth := if cs.head?.any fun c => isSpace c || isBreak c then ['2'] else []
  '|' :: depth ++ chompingHint cs ++ '\n' :: blockBody true cs

/-- Whether a text without line feeds would read back as something else if it were plain. -/
def isDisguised (s : String) : Bool :=
  match Scalar.ofPlain s with
  | .text _ => Scalar.isPadded s.toList
  | _ => true

def text (s : String) : List Char :=
  let cs := s.toList
  if cs.contains '\n' then if allowsBlock cs then asBlock cs else withQuotes cs
  else if !isDisguised s && allowsPlain cs then cs
  else if allowsApostrophes cs then withApostrophes cs
  else withQuotes cs

/-! ### Mappings -/

inductive Field where
  | text (value : String)
  | number (value : Nat)

def Field.form : Field → List Char
  | .text s => Writer.text s
  | .number n => Nat.toDigits 10 n

/-- An entry of a mapping with its line end, which a literal block may have already. -/
def entry (name : String) (value : Field) : List Char :=
  let form := value.form
  let lineEnd := if form.getLast?.any isBreak then [] else ['\n']
  name.toList ++ ':' :: ' ' :: form ++ lineEnd

def mapping (entries : List (String × Field)) : String :=
  String.ofList (entries.flatMap fun e => entry e.1 e.2)

end ActionRegistry.Yaml.Writer
