import ActionRegistry.Yaml.Jumps

/-!
# YAML values

A document with its aliases resolved, its scalars read and its keys all different.
-/

namespace ActionRegistry.Yaml

open Decoding

inductive Value where
  | null
  | bool (value : Bool)
  | integer (value : Int)
  | float (value : Binary64)
  | text (value : String)
  | sequence (items : List Value)
  | mapping (entries : List (Value × Value))
  /-- A value with a tag of its own. -/
  | tagged (tag : String) (value : Value)
  deriving Inhabited

namespace Value

/-! ### Equal keys -/

/-- Whether two doubles are equal as keys: the zeros are, and so are all NaNs. -/
def sameFloat (x y : Binary64) : Bool :=
  x == y || (x.isZero && y.isZero) || (x.isNaN && y.isNaN)

def bareTag (tag : String) : String :=
  match tag.toList with
  | '!' :: c :: rest => String.ofList (c :: rest)
  | _ => tag

mutual

/-- Whether two values are equal as keys. The order of the entries of a mapping does not count. -/
def same : Value → Value → Bool
  | null, null => true
  | bool a, bool b => a == b
  | integer a, integer b => a == b
  | float a, float b => sameFloat a b
  | text a, text b => a == b
  | sequence as, sequence bs => sameItems as bs
  | mapping as, mapping bs => as.length == bs.length && sameEntries as bs
  | tagged t a, tagged u b => bareTag t == bareTag u && same a b
  | _, _ => false

def sameItems : List Value → List Value → Bool
  | [], [] => true
  | a :: as, b :: bs => same a b && sameItems as bs
  | _, _ => false

def sameEntries : List (Value × Value) → List (Value × Value) → Bool
  | [], _ => true
  | (k, v) :: es, others =>
    (others.any fun other => same k other.1 && same v other.2) && sameEntries es others

end

/-! ### From nodes to values -/

/-- The value of a scalar, which has no more than sixty-four bits if it is an integer. -/
def ofScalar : Scalar → Decoded Value
  | .null => .ok null
  | .bool b => .ok (bool b)
  | .integer n => .ok (integer n)
  | .wideInteger n => wrongType (.wideInteger n) "any YAML value"
  | .float x => .ok (float x)
  | .text s => .ok (text s)

/-- The value of a scalar with a tag of its own, which is then read as if it had none. -/
def ofNamed (name : String) (s : String) (style : ScalarStyle) : Decoded Value := do
  let scalar ← Scalar.resolve none s style
  tagged name <$> ofScalar scalar

def underTag (tag : Option Tag) (v : Value) : Value :=
  match tag.bind Tag.name? with
  | some name => tagged name v
  | none => v

/-- The entries of a mapping, of which no two have equal keys. -/
def ofEntries (decode : Node → Jumping Value) :
    List (Node × Node) → List (Value × Value) → Jumping (List (Value × Value))
  | [], found => pure found.reverse
  | (k, v) :: entries, found => do
    let key ← decode k
    if found.any fun e => same e.1 key then throw (.here .malformed)
    let value ← decode v
    ofEntries decode entries ((key, value) :: found)

def ofNode (targets : Targets) : (depth : Nat) → Node → Jumping Value
  | depth, n => do
    match ← targets.jump n with
    | .scalar tag _ s style =>
      match tag.bind Tag.name? with
      | some name => ofNamed name s style
      | none => (Scalar.resolve tag s style >>= ofScalar : Decoded Value)
    | .sequence tag _ items =>
      match depth with
      | 0 => throw (.here .malformed)
      | depth + 1 => (underTag tag ∘ sequence) <$> items.mapM (ofNode targets depth)
    | .mapping tag _ entries =>
      match depth with
      | 0 => throw (.here .malformed)
      | depth + 1 => (underTag tag ∘ mapping) <$> ofEntries (ofNode targets depth) entries []
    | _ => throw (.here .malformed)

def ofDocument (d : Document) : Decoded Value := do
  let v ← (ofNode (.ofDocument d) greatestDepth d.root).run' d.jumps
  if d.isIntact then .ok v else malformed

def ofText? (text : String) : Option (List Value) :=
  (Document.ofText text).mapM fun d => (ofDocument d).toOption

end Value

end ActionRegistry.Yaml
