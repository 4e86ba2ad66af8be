/-!
# The tokens of a YAML text

Indentation becomes tokens of its own: a block collection starts and ends by a token, as a bracketed
one does.
-/

namespace ActionRegistry.Yaml

inductive ScalarStyle where
  | plain
  | singleQuoted
  | doubleQuoted
  | literal
  | folded
  deriving DecidableEq, Repr

/-- The octets of a part of a tag, which may be escaped in the text. -/
abbrev TagPart := List UInt8

inductive Token where
  | streamEnd
  | version (major minor : Nat)
  | tagShorthand (handle : List Char) (start : TagPart)
  | documentStart
  | documentEnd
  | blockSequenceStart
  | blockMappingStart
  | blockEnd
  | flowSequenceStart
  | flowSequenceEnd
  | flowMappingStart
  | flowMappingEnd
  | blockEntry
  | flowEntry
  | key
  | value
  | reference (name : List Char)
  | anchor (name : List Char)
  | tag (handle : List Char) (suffix : TagPart)
  | scalar (text : List Char) (style : ScalarStyle)
  deriving DecidableEq, Repr

end ActionRegistry.Yaml
