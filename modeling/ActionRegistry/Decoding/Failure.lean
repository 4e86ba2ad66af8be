import ActionRegistry.Text

/-!
# Why a value does not decode

A decoder expects a shape and tells what it found in its place. The failure keeps the cause and, for
formats that track it, the path from the whole document to the value at fault; the wording is in
`Failure.message` alone.
-/

namespace ActionRegistry.Decoding

/-- What stands where something else was expected. -/
inductive Found where
  | null
  /-- An empty value of a YAML document. -/
  | unit
  | boolean (value : Bool)
  | integer (value : Int)
  /-- An integer beyond sixty-four bits. -/
  | wideInteger (value : Int)
  /-- A floating point number, as its text. -/
  | float (digits : String)
  | text (value : String)
  | sequence
  | map
  /-- A value with a tag of its own. -/
  | tagged
  deriving DecidableEq, Repr

def Found.description : Found → String
  | null => "null"
  | unit => "unit value"
  | boolean b => "boolean `" ++ (if b then "true" else "false") ++ "`"
  | integer n => "integer `" ++ toString n ++ "`"
  | wideInteger n =>
    "integer `" ++ toString n ++ "` as " ++ (if n < 0 then "i128" else "u128")
  | float digits => "floating point `" ++ digits ++ "`"
  | text s => "string " ++ Text.quoted s
  | sequence => "sequence"
  | map => "map"
  | tagged => "enum"

inductive Cause where
  | wrongType (found : Found) (expected : String)
  | wrongValue (found : Found) (expected : String)
  | wrongLength (length : Nat) (expected : String)
  | missingField (name : String)
  | unknownField (name : String) (known : List String)
  | duplicateField (name : String)
  | unknownVariant (name : String) (known : List String)
  | numberOutOfRange
  | missingParameter (key : String)
  | malformed
  /-- A text with one document was expected, and there are more. -/
  | severalDocuments
  /-- Aliases stand for too much. -/
  | tooManyJumps
  deriving DecidableEq, Repr

def backquoted (name : String) : String := "`" ++ name ++ "`"

/-- What would have been expected in the place of an unknown name. -/
def alternatives : List String → String
  | [] => "there are no fields"
  | [a] => "expected " ++ backquoted a
  | [a, b] => "expected " ++ backquoted a ++ " or " ++ backquoted b
  | names => "expected one of " ++ String.intercalate ", " (names.map backquoted)

/-- The wording of a cause. What is wrong with a malformed document is not told. -/
def Cause.message : Cause → String
  | wrongType found expected => "invalid type: " ++ found.description ++ ", expected " ++ expected
  | wrongValue found expected => "invalid value: " ++ found.description ++ ", expected " ++ expected
  | wrongLength n expected => "invalid length " ++ toString n ++ ", expected " ++ expected
  | missingField name => "missing field " ++ backquoted name
  | unknownField name known =>
    "unknown field " ++ backquoted name ++ ", " ++ alternatives known
  | duplicateField name => "duplicate field " ++ backquoted name
  | unknownVariant name known =>
    "unknown variant " ++ backquoted name ++ ", " ++ alternatives known
  | numberOutOfRange => "JSON number out of range"
  | missingParameter key => "missing run parameter: " ++ key
  | malformed => "yaml"
  | severalDocuments =>
    "deserializing from YAML containing more than one document is not supported"
  | tooManyJumps => "repetition limit exceeded"

/-- Whether a cause lies in the text as a whole, so that no path leads to it. -/
def Cause.isOfText : Cause → Bool
  | malformed => true
  | severalDocuments => true
  | tooManyJumps => true
  | _ => false

/-- One step from a value into a part of it. -/
inductive PathStep where
  | key (name : String)
  | item (index : Nat)
  /-- The value of a key that is no scalar. -/
  | unnamed
  deriving DecidableEq, Repr

/-- Where a value does not decode, and why. -/
structure Failure where
  /-- The steps from the whole document to the value, the outermost first. -/
  path : List PathStep
  cause : Cause
  deriving DecidableEq, Repr

namespace Failure

def here (cause : Cause) : Failure := ⟨[], cause⟩

/-- The failure of a part, as a failure of the whole. -/
def inside (step : PathStep) (f : Failure) : Failure := { f with path := step :: f.path }

def pathText (before : Option String) : List PathStep → Option String
  | [] => before
  | .key name :: steps => pathText (some (before.elim name (· ++ "." ++ name))) steps
  | .item index :: steps => pathText (some (before.getD "." ++ "[" ++ toString index ++ "]")) steps
  | .unnamed :: steps => pathText (some (before.elim "?" (· ++ ".?"))) steps

/-- The wording of a failure: the path, if there is one, and the cause. -/
def message (f : Failure) : String :=
  match pathText none f.path with
  | none => f.cause.message
  | some path =>
    if f.cause.isOfText then f.cause.message else path ++ ": " ++ f.cause.message

end Failure

abbrev Decoded (α : Type) := Except Failure α

def wrongType {α : Type} (found : Found) (expected : String) : Decoded α :=
  .error (.here (.wrongType found expected))

def wrongValue {α : Type} (found : Found) (expected : String) : Decoded α :=
  .error (.here (.wrongValue found expected))

def malformed {α : Type} : Decoded α := .error (.here .malformed)

end ActionRegistry.Decoding
