/-!
# Machine words and binary floating point numbers

An integer fits a word of so many bits, with a sign or without, if it lies between powers of two.

A double is its sixty-four bits. Its value is read off the bits exactly, as a natural number times a
power of two, and every operation rounds the exact quotient once, to the nearest double and a tie to
the even one. So no operation rests on machine arithmetic, and all of them compute in the kernel.
-/

namespace ActionRegistry

/-! ### Words -/

def fitsUnsigned (bits : Nat) (n : Int) : Bool := 0 ≤ n && n < ((1 <<< bits : Nat) : Int)

def fitsSigned (bits : Nat) (n : Int) : Bool :=
  -((1 <<< (bits - 1) : Nat) : Int) ≤ n && n < ((1 <<< (bits - 1) : Nat) : Int)

/-- Whether an integer fits a word, with a sign or without. -/
def fitsWord (bits : Nat) (n : Int) : Bool := fitsSigned bits n || fitsUnsigned bits n

/-! ### Doubles -/

/-- A double, as its bits. -/
structure Binary64 where
  /-- The sign, then eleven bits of exponent, then fifty-two bits of fraction. -/
  bits : UInt64
  deriving DecidableEq, Repr

namespace Binary64

def signBit : Nat := 0x8000000000000000

def fractions : Nat := 0x10000000000000

def exponents : Nat := 0x800

/-- Whether the sign bit is set, which it is for negative zero too. -/
def negative (x : Binary64) : Bool :=
  signBit ≤ x.bits.toNat

def exponentField (x : Binary64) : Nat :=
  x.bits.toNat / fractions % exponents

def fractionField (x : Binary64) : Nat :=
  x.bits.toNat % fractions

/-- Whether the double is a number, and not an infinity or a NaN. -/
def isFinite (x : Binary64) : Bool :=
  x.exponentField != 2047

def isNaN (x : Binary64) : Bool :=
  x.exponentField == 2047 && x.fractionField != 0

/-- The natural number that the power of two scales. -/
def significand (x : Binary64) : Nat :=
  if x.exponentField = 0 then x.fractionField else x.fractionField + fractions

def exponent (x : Binary64) : Int :=
  (max x.exponentField 1 : Nat) - 1075

def isZero (x : Binary64) : Bool :=
  x.exponentField == 0 && x.fractionField == 0

/-- The double of a sign and the bits below it. -/
def ofMagnitude (negative : Bool) (magnitude : Nat) : Binary64 :=
  ⟨UInt64.ofNat (if negative then magnitude + signBit else magnitude)⟩

def infiniteMagnitude : Nat := 2047 * fractions

def zero (negative : Bool) : Binary64 := ofMagnitude negative 0

def infinity (negative : Bool) : Binary64 := ofMagnitude negative infiniteMagnitude

def nan : Binary64 := ofMagnitude false (infiniteMagnitude + fractions / 2)

def neg (x : Binary64) : Binary64 :=
  ofMagnitude (!x.negative) (x.bits.toNat % signBit)

/-- The natural number nearest to a quotient, a tie going to the even one. -/
def roundHalfEven (num den : Nat) : Nat :=
  let q := num / den
  let r := num % den
  if 2 * r < den then q else if den < 2 * r then q + 1 else q + q % 2

def scaleDown (num den : Nat) (e : Int) : Nat × Nat :=
  match e with
  | .ofNat k => (num, den <<< k)
  | .negSucc k => (num <<< (k + 1), den)

/-- The exponent at which the nearest double to a positive quotient has its last bit. -/
def lastBit (num den : Nat) : Int :=
  let e : Int := (num.log2 : Int) - den.log2 - 53
  let (n, d) := scaleDown num den e
  max (if n < d * (2 * fractions) then e else e + 1) (-1074)

/-- The double nearest to a quotient, an infinity when the quotient is too large. -/
def ofRatio (negative : Bool) (num den : Nat) : Binary64 :=
  if num = 0 then zero negative
  else
    let e := lastBit num den
    let (n, d) := scaleDown num den e
    let magnitude := (e + 1074).toNat * fractions + roundHalfEven n d
    ofMagnitude negative (min magnitude infiniteMagnitude)

/-- A natural number times a power of two, over another, rounded. -/
def ofScaled (negative : Bool) (num den : Nat) (e : Int) : Binary64 :=
  let (n, d) := scaleDown num den (-e)
  ofRatio negative n d

def mul (x y : Binary64) : Binary64 :=
  ofScaled (x.negative != y.negative) (x.significand * y.significand) 1 (x.exponent + y.exponent)

def div (x y : Binary64) : Binary64 :=
  ofScaled (x.negative != y.negative) x.significand y.significand (x.exponent - y.exponent)

def ofNat (n : Nat) : Binary64 := ofRatio false n 1

end Binary64

end ActionRegistry
