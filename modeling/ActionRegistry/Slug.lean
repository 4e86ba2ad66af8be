/-!
# Slugs

A slug is an identifier for task groups: sixteen octets, the first bit cleared, written in
twenty-two characters of the alphabet of base 64 that is safe in addresses. As the first bit is
clear, a slug never starts with a hyphen.
-/

namespace ActionRegistry.Slug

def digit (n : Nat) : Char :=
  if n < 26 then Char.ofNat (65 + n)
  else if n < 52 then Char.ofNat (71 + n)
  else if n < 62 then Char.ofNat (n - 4)
  else if n = 62 then '-'
  else '_'

/-- Octets as digits in base 64: four digits for three octets, and at the end as many as hold the
octets that are left. -/
def digits : List UInt8 → List Nat
  | a :: b :: c :: rest =>
    let n := (a.toNat * 256 + b.toNat) * 256 + c.toNat
    n >>> 18 :: (n >>> 12) % 64 :: (n >>> 6) % 64 :: n % 64 :: digits rest
  | [a, b] =>
    let n := (a.toNat * 256 + b.toNat) * 4
    [n >>> 12, (n >>> 6) % 64, n % 64]
  | [a] =>
    let n := a.toNat * 16
    [n >>> 6, n % 64]
  | [] => []

def clearFirstBit : List UInt8 → List UInt8
  | [] => []
  | a :: rest => (a &&& 0x7F) :: rest

/-- The sixteen octets of a random identifier: of the octets given, six bits tell its kind. -/
def randomIdentifier (octets : Vector UInt8 16) : Vector UInt8 16 :=
  (octets.set 6 (octets[6] &&& 0x0F ||| 0x40)).set 8 (octets[8] &&& 0x3F ||| 0x80)

def ofIdentifier (octets : Vector UInt8 16) : String :=
  String.ofList ((digits (clearFirstBit octets.toList)).map digit)

end ActionRegistry.Slug
