import ActionRegistry.Decoding.Failure
import ActionRegistry.Number.Decimal
import ActionRegistry.Yaml.Node

/-!
# What scalars stand for

A plain scalar without a tag stands for what its text looks like: nothing, a truth value, a number
or else a text. The standard tags say which of these it must be, and any other scalar is a text.
-/

namespace ActionRegistry.Yaml

open Decoding

inductive Scalar where
  | null
  | bool (value : Bool)
  /-- An integer of sixty-four bits, signed or unsigned. -/
  | integer (value : Int)
  /-- An integer of more than sixty-four and at most 128 bits. -/
  | wideInteger (value : Int)
  | float (value : Binary64)
  | text (value : String)
  deriving DecidableEq, Repr

namespace Scalar

/-! ### Integers -/

def digitValue? (base : Nat) (c : Char) : Option Nat :=
  (Token.hexValue? c).filter (· < base)

/-- The natural number that digits in a base stand for; there must be one digit at least. -/
def natural? (base : Nat) (digits : List Char) : Option Nat :=
  if digits.isEmpty then none
  else digits.foldlM (fun n c => (digitValue? base c).map (n * base + ·)) 0

/-- The digits of a number in another base than ten, after the letters that tell the base. -/
def based? : List Char → Option Nat
  | '0' :: 'x' :: digits => natural? 16 digits
  | '0' :: 'o' :: digits => natural? 8 digits
  | '0' :: 'b' :: digits => natural? 2 digits
  | _ => none

def dropSign : List Char → List Char
  | '+' :: rest => rest
  | '-' :: rest => rest
  | cs => cs

/-- Whether a text is digits only, with zeros before the number, and so stands for itself. -/
def isPadded (cs : List Char) : Bool :=
  match dropSign cs with
  | '0' :: c :: rest => (c :: rest).all Char.isDigit
  | _ => false

def unsigned? (cs : List Char) : Option Nat :=
  let digits := if cs.head? = some '+' then cs.tail else cs
  match based? digits with
  | some n => some n
  | none => if isPadded cs then none else natural? 10 digits

/-- The natural number that a text stands for below zero. -/
def negative? : List Char → Option Nat
  | '-' :: digits =>
    match based? digits with
    | some n => some n
    | none => if isPadded digits then none else natural? 10 digits
  | _ => none

def integer? (cs : List Char) : Option Int :=
  match unsigned? cs with
  | some n => some n
  | none => (negative? cs).map fun n => -(n : Int)

/-- The scalar of an integer, unless it has more than 128 bits. -/
def ofInteger? (n : Int) : Option Scalar :=
  if fitsWord 64 n then some (integer n)
  else if fitsWord 128 n then some (wideInteger n)
  else none

/-! ### Floating point numbers -/

def digitsValue (digits : List Char) : Nat :=
  digits.foldl (fun n c => n * 10 + (c.toNat - 48)) 0

def exponent? : List Char → Option Int
  | [] => some 0
  | c :: rest =>
    if c == 'e' || c == 'E' then
      let digits := dropSign rest
      if digits.isEmpty || !digits.all Char.isDigit then none
      else
        let n : Int := digitsValue digits
        some (if rest.head? = some '-' then -n else n)
    else none

/-- The decimal that a text without a sign stands for: digits with or without a point, and an
exponent. -/
def decimal? (cs : List Char) : Option Decimal := do
  let whole := cs.takeWhile Char.isDigit
  let rest := cs.drop whole.length
  let (fraction, rest) :=
    match rest with
    | '.' :: rest =>
      let digits := rest.takeWhile Char.isDigit
      (digits, rest.drop digits.length)
    | rest => ([], rest)
  if whole.isEmpty && fraction.isEmpty then none
  let e ← exponent? rest
  pure ⟨digitsValue (whole ++ fraction), e - fraction.length⟩

def finite? (cs : List Char) : Option Binary64 := do
  let negative := cs.head? = some '-'
  let d ← decimal? (if negative then cs.tail else cs)
  let x := Binary64.nearest negative d
  if x.isFinite then some x else none

def float? (cs : List Char) : Option Binary64 :=
  let infinite := [".inf", ".Inf", ".INF"].map String.toList
  if infinite.contains cs || (infinite.map ('+' :: ·)).contains cs then some (.infinity false)
  else if (infinite.map ('-' :: ·)).contains cs then some (.infinity true)
  else if ([".nan", ".NaN", ".NAN"].map String.toList).contains cs then some .nan
  else
    match cs with
    | '+' :: '-' :: _ => none
    | '+' :: rest => finite? rest
    | cs => finite? cs

/-! ### Scalars -/

def isNullWord (s : String) : Bool := ["null", "Null", "NULL", "~"].contains s

def bool? (s : String) : Option Bool :=
  if ["true", "True", "TRUE"].contains s then some true
  else if ["false", "False", "FALSE"].contains s then some false
  else none

def ofPlain (s : String) : Scalar :=
  if s.isEmpty || isNullWord s then null
  else
    match bool? s with
    | some b => bool b
    | none =>
      let cs := s.toList
      match (integer? cs).bind ofInteger? with
      | some n => n
      | none =>
        if isPadded cs then text s
        else
          match float? cs with
          | some x => float x
          | none => text s

def standardTag (name : String) : Tag :=
  Token.asciiOctets ("tag:yaml.org,2002:" ++ name).toList

def exclamationMark : UInt8 := 33

/-- What a scalar with a tag stands for. A standard tag refuses a text that does not look like it.
-/
def ofTagged (tag : Tag) (s : String) (style : ScalarStyle) : Decoded Scalar :=
  let demand (expected : String) : Option Scalar → Decoded Scalar
    | some v => .ok v
    | none => wrongValue (.text s) expected
  if tag = standardTag "bool" then demand "a boolean" ((bool? s).map bool)
  else if tag = standardTag "int" then
    demand "an integer" ((integer? s.toList).bind ofInteger?)
  else if tag = standardTag "float" then demand "a float" ((float? s.toList).map float)
  else if tag = standardTag "null" then demand "null" (if isNullWord s then some null else none)
  else if tag.head? = some exclamationMark && style = .plain then .ok (ofPlain s)
  else .ok (text s)

def resolve (tag : Option Tag) (s : String) (style : ScalarStyle) : Decoded Scalar :=
  match tag with
  | some tag => ofTagged tag s style
  | none => .ok (if style = .plain then ofPlain s else text s)

/-- The layout of floating point numbers in messages, which never has an exponent. -/
def floatLayout : Layout := ⟨none, none⟩

def floatText (x : Binary64) : String :=
  if x.isNaN then "NaN"
  else if x.isFinite then floatLayout.text x
  else if x.negative then "-inf"
  else "inf"

def found : Scalar → Found
  | null => .unit
  | bool b => .boolean b
  | integer n => .integer n
  | wideInteger n => .wideInteger n
  | float x => .float (floatText x)
  | text s => .text s

end Scalar

/-- The name of a tag that is not standard: its text after the exclamation mark, or the mark if
there is nothing else. -/
def Tag.name? (tag : Tag) : Option String :=
  match tag with
  | [] => none
  | first :: rest =>
    if first = Scalar.exclamationMark then
      String.fromUTF8? ⟨(if rest.isEmpty then tag else rest).toArray⟩
    else none

end ActionRegistry.Yaml
