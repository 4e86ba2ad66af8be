import ActionRegistry.Decoding.Record
import ActionRegistry.Json.Value
import ActionRegistry.Yaml.Value

/-!
# Decoding YAML

There are two ways to decode. A value that was read before is decoded as such: its tags are passed
over where one shape is expected, and its keys have to be texts. A document is decoded as it is
read: any scalar is a text where a text is expected, a failure tells its path, and one that comes
before the place where the rules are broken is told instead of that.
-/

namespace ActionRegistry.Yaml

open Decoding

namespace Value

def found : Value → Found
  | null => .unit
  | bool b => .boolean b
  | integer n => .integer n
  | float x => .float (Scalar.floatText x)
  | text s => .text s
  | sequence _ => .sequence
  | mapping _ => .map
  | tagged .. => .tagged

def untag : Value → Value
  | tagged _ v => untag v
  | v => v

def asText (expected : String) (v : Value) : Decoded String :=
  match v.untag with
  | text s => .ok s
  | v => wrongType v.found expected

def asInt64 (v : Value) : Decoded Int64 :=
  match v.untag with
  | integer n => if fitsSigned 64 n then .ok (Int64.ofInt n) else wrongValue (.integer n) "i64"
  | v => wrongType v.found "i64"

/-- The items of a sequence. Nothing is an empty sequence. -/
def asList {α : Type} (decode : Value → Decoded α) (v : Value) : Decoded (List α) :=
  match v.untag with
  | sequence items => items.mapM decode
  | null => .ok []
  | v => wrongType v.found "a sequence"

/-- The entries of a mapping as a map from texts. Nothing is an empty map. -/
def asMap {α : Type} (decode : Value → Decoded α) (v : Value) : Decoded (SortedMap α) :=
  match v.untag with
  | mapping entries => do
    let entries ← entries.mapM fun e => do
      let key ← asText "a string" e.1
      pure (key, ← decode e.2)
    pure (SortedMap.ofList entries)
  | null => .ok .empty
  | v => wrongType v.found "a map"

def asOption {α : Type} (decode : Value → Decoded α) : Value → Decoded (Option α)
  | null => .ok none
  | v => some <$> decode v

def reading : Record.Reading Value Value where
  name := asText "field identifier"
  skip _ := .ok ()
  locate _ f := f

/-- A record. Nothing is a record without fields. -/
def asRecord {α : Type} (r : Record Value α) (v : Value) : Decoded α :=
  match v.untag with
  | mapping entries => r.ofEntries reading entries
  | null => r.ofEntries reading []
  | v => wrongType v.found r.title

/-- The number of a double, if it has one. -/
def jsonOfFloat (x : Binary64) : Json :=
  if x.isFinite then .number (.float x) else .null

/-- What the key of an entry is expected to be: the first key tells that the mapping is an object.
-/
def keyExpectation (isFirst : Bool) : String := if isFirst then "a string key" else "a string"

mutual

def toJson : Value → Decoded Json
  | null => .ok .null
  | bool b => .ok (.bool b)
  | integer n => .ok (.ofInt n)
  | float x => .ok (jsonOfFloat x)
  | text s => .ok (.string s)
  | sequence items => .array <$> itemsToJson items
  | mapping entries => .ofFields <$> entriesToJson true entries
  | tagged .. => wrongType .tagged "any valid JSON value"

def itemsToJson : List Value → Decoded (List Json)
  | [] => .ok []
  | v :: vs => do
    let j ← toJson v
    let js ← itemsToJson vs
    pure (j :: js)

def entriesToJson : (isFirst : Bool) → List (Value × Value) → Decoded (List (String × Json))
  | _, [] => .ok []
  | isFirst, (k, v) :: es => do
    let name ← asText (keyExpectation isFirst) k
    let j ← toJson v
    let js ← entriesToJson false es
    pure ((name, j) :: js)

end

end Value

namespace Document

def wrongShape {α : Type} (n : Node) (expected : String) : Decoded α :=
  match n with
  | .scalar tag _ s style => do wrongType (← Scalar.resolve tag s style).found expected
  | .sequence .. => wrongType .sequence expected
  | .mapping .. => wrongType .map expected
  | _ => malformed

/-- The text of a node, which is any scalar. -/
def text (expected : String) (n : Node) : Decoded String :=
  match n with
  | .scalar _ _ s _ => .ok s
  | n => wrongShape n expected

def uint32 (n : Node) : Decoded UInt32 :=
  match n with
  | .scalar tag _ s style =>
    let isNumber := style = .plain || (style = .literal && tag = some (Scalar.standardTag "int"))
    let inWord (k : Nat) : Bool := fitsUnsigned 64 k
    match if isNumber then (Scalar.unsigned? s.toList).filter inWord else none with
    | some k => if fitsUnsigned 32 k then .ok (UInt32.ofNat k) else wrongValue (.integer k) "u32"
    | none => wrongShape n "u32"
  | n => wrongShape n "u32"

def isEmpty : Node → Bool
  | .scalar _ _ s style => s.isEmpty && style == .plain
  | _ => false

def stepOf : Node → PathStep
  | .scalar _ _ s _ => .key s
  | _ => .unnamed

def reading (targets : Targets) : Record.Reading Node Node where
  name n := text "field identifier" (targets.follow n)
  skip n := if n.isComplete then .ok () else malformed
  locate key := .inside (stepOf key)

/-- The record that a document is. An empty document is a record without fields. -/
def record {α : Type} (r : Targets → Record Node α) (d : Document) : Decoded α :=
  let targets := Targets.ofDocument d
  match d.root with
  | .mapping _ _ entries => (r targets).ofEntries (reading targets) entries
  | n =>
    if isEmpty n then (r targets).ofEntries (reading targets) []
    else wrongShape n (r targets).title

def jsonOfScalar : Scalar → Decoded Json
  | .null => .ok .null
  | .bool b => .ok (.bool b)
  | .integer n => .ok (.ofInt n)
  | .wideInteger _ => .error (.here .numberOutOfRange)
  | .float x => .ok (Value.jsonOfFloat x)
  | .text s => .ok (.string s)

def keyText (targets : Targets) (expected : String) (n : Node) : Jumping String := do
  text expected (← targets.jump n)

def fields (targets : Targets) (decode : Node → Jumping Json) (first others : String) :
    List (Node × Node) → Jumping (List (String × Json))
  | [] => pure []
  | (k, v) :: entries => do
    let name ← keyText targets first k
    let value ← (decode v).inside (stepOf k)
    let rest ← fields targets decode others others entries
    pure ((name, value) :: rest)

def items (decode : Node → Jumping Json) : (position : Nat) → List Node → Jumping (List Json)
  | _, [] => pure []
  | position, n :: ns => do
    let j ← (decode n).inside (.item position)
    let js ← items decode (position + 1) ns
    pure (j :: js)

/-- The JSON value that a node is, inside so many more collections at most. -/
def json (targets : Targets) : (depth : Nat) → Node → Jumping Json
  | depth, n => do
    let n ← targets.jump n
    let refuseTag (tag : Option Tag) : Decoded Unit :=
      if (tag.bind Tag.name?).isSome then wrongType .tagged "any valid JSON value" else .ok ()
    match n with
    | .scalar tag _ s style =>
      refuseTag tag
      (Scalar.resolve tag s style >>= jsonOfScalar : Decoded Json)
    | .sequence tag _ ns =>
      refuseTag tag
      match depth with
      | 0 => throw (.here .malformed)
      | depth + 1 => Json.array <$> items (json targets depth) 0 ns
    | .mapping tag _ entries =>
      refuseTag tag
      match depth with
      | 0 => throw (.here .malformed)
      | depth + 1 =>
        Json.ofFields <$> fields targets (json targets depth) (Value.keyExpectation true)
          (Value.keyExpectation false) entries
    | _ => throw (.here .malformed)

/-- The map from texts to JSON values that a document is. An empty document is an empty map. -/
def jsonMap (d : Document) : Decoded (SortedMap Json) :=
  let targets := Targets.ofDocument d
  match d.root with
  | .mapping _ _ entries => do
    let decode := json targets (greatestDepth - 1)
    let entries ← (fields targets decode "a string" "a string" entries).run' d.jumps
    pure (SortedMap.ofList entries)
  | n => if isEmpty n then .ok .empty else wrongShape n "a map"

end Document

end ActionRegistry.Yaml
