import ActionRegistry.Decoding.Record
import ActionRegistry.Json.Value

/-!
# Decoding JSON values

Decoders of JSON values into texts, numbers, lists, maps and records. A record is an object with its
fields or an array of its values.
-/

namespace ActionRegistry.Json

open Decoding

def found : Json → Found
  | null => .null
  | bool b => .boolean b
  | number (.integer n) => .integer n
  | number (.float x) => .float (Number.float x).text
  | string s => .text s
  | array _ => .sequence
  | object _ => .map

def asText : Json → Decoded String
  | string s => .ok s
  | v => wrongType v.found "a string"

def asBool : Json → Decoded Bool
  | bool b => .ok b
  | v => wrongType v.found "a boolean"

def asUInt32 : Json → Decoded UInt32
  | number (.integer n) =>
    if fitsUnsigned 32 n then .ok (UInt32.ofNat n.toNat) else wrongValue (.integer n) "u32"
  | v => wrongType v.found "u32"

def asOption {α : Type} (decode : Json → Decoded α) : Json → Decoded (Option α)
  | null => .ok none
  | v => some <$> decode v

def asList {α : Type} (decode : Json → Decoded α) : Json → Decoded (List α)
  | array items => items.mapM decode
  | v => wrongType v.found "a sequence"

def asMap {α : Type} (decode : Json → Decoded α) : Json → Decoded (SortedMap α)
  | object fields => do
    let entries ← fields.mapM fun field => do pure (field.1, ← decode field.2)
    pure (SortedMap.ofList entries)
  | v => wrongType v.found "a map"

def reading : Record.Reading String Json where
  name := .ok
  skip _ := .ok ()
  locate _ f := f

def asRecord {α : Type} (r : Record Json α) : Json → Decoded α
  | object fields => r.ofEntries reading fields
  | array items => r.ofItems items
  | v => wrongType v.found r.title

end ActionRegistry.Json
