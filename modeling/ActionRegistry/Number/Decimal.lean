import ActionRegistry.Number.Binary64

/-!
# Decimals and doubles

Two ways from a decimal to a double: the nearest double, and the product or quotient of two rounded
doubles, which a reader of number texts may take instead and which can differ from the nearest in
the last bit. One way back: the shortest decimal that reads back to the double. How a decimal is
laid out as text is a `Layout`.
-/

namespace ActionRegistry

/-- A natural number times a power of ten. -/
structure Decimal where
  digits : Nat
  exponent : Int
  deriving DecidableEq, Repr

def tenTo (k : Nat) : Nat := Nat.pow 10 k

namespace Binary64

def powerOfTen (k : Nat) : Binary64 := ofNat (tenTo k)

/-- The double nearest to a decimal, an infinity when the decimal is too large. A decimal far beyond
the doubles on either side is not computed. -/
def nearest (negative : Bool) (d : Decimal) : Binary64 :=
  let magnitude : Int := (Nat.toDigits 10 d.digits).length + d.exponent
  if d.digits = 0 || magnitude < -330 then zero negative
  else if 330 < magnitude then infinity negative
  else
    match d.exponent with
    | .ofNat k => ofRatio negative (d.digits * tenTo k) 1
    | .negSucc k => ofRatio negative d.digits (tenTo (k + 1))

/-- A double divided by ten to the power of 308 as often as the exponent allows, at most `fuel`
times, and the exponent that is left. -/
def divideDown : Nat → Binary64 → Nat → Binary64 × Nat
  | 0, x, k => (x, k)
  | fuel + 1, x, k => if k ≤ 308 then (x, k) else divideDown fuel (x.div (powerOfTen 308)) (k - 308)

/-- The digits as a double, times or over a power of ten as a double. Below the least double the
quotient is taken in four steps at most. -/
def stepwise (negative : Bool) (d : Decimal) : Binary64 :=
  let x := ofRatio negative d.digits 1
  if x.isZero then x
  else
    match d.exponent with
    | .ofNat k => if 308 < k then infinity negative else x.mul (powerOfTen k)
    | .negSucc k =>
      let (y, rest) := divideDown 4 x (k + 1)
      if 308 < rest then zero negative else y.div (powerOfTen rest)

/-- Four times the significand, and the half gaps below and above it on the same scale. -/
def interval (x : Binary64) : Nat × Nat × Nat :=
  let m := 4 * x.significand
  (m, if x.fractionField = 0 && 1 < x.exponentField then 1 else 2, 2)

def overTen (num den : Nat) (k : Int) : Nat × Nat :=
  match k with
  | .ofNat n => (num, den * tenTo n)
  | .negSucc n => (num * tenTo (n + 1), den)

/-- The number of digits before the point of a positive quotient, from a guess that is not too
large. -/
def pointOf (num den : Nat) : Nat → Int → Int
  | 0, k => k
  | fuel + 1, k =>
    let (n, d) := overTen num den k
    if n < d then k else pointOf num den fuel (k + 1)

/-- The decimal next to a double on a grid of decimals that reads back to it, the nearer or else the
even one of two. The double and the half gaps are multiples of one unit, which is given over the
step of the grid. -/
def onGrid (x : Binary64) (num den : Nat) : Option Nat :=
  let (m, below, above) := x.interval
  let low := m * num / den
  let even := x.significand % 2 = 0
  let reads (c : Nat) : Bool :=
    let v := c * den
    let bottom := (m - below) * num
    let top := (m + above) * num
    if even then bottom ≤ v && v ≤ top else bottom < v && v < top
  let left := m * num - low * den
  let right := (low + 1) * den - m * num
  let nearer := if left < right then low else if right < left then low + 1 else low + low % 2
  if reads low && reads (low + 1) then some nearer
  else if reads low then some low
  else if reads (low + 1) then some (low + 1)
  else none

/-- The first of the grids with `digits` and more digits that has a decimal for the double. -/
def firstGrid (x : Binary64) (num den : Nat) (point : Int) : Nat → Nat → Decimal
  | 0, digits => ⟨0, point - digits⟩
  | fuel + 1, digits =>
    let step := point - digits
    let (n, d) := overTen num den step
    match x.onGrid n d with
    | some c => ⟨c, step⟩
    | none => firstGrid x num den point fuel (digits + 1)

def dropZeros : Nat → Decimal → Decimal
  | 0, d => d
  | fuel + 1, d =>
    if d.digits ≠ 0 ∧ d.digits % 10 = 0 then dropZeros fuel ⟨d.digits / 10, d.exponent + 1⟩ else d

/-- The shortest decimal that reads back to a finite double other than zero, and the nearest of
those. -/
def shortest (x : Binary64) : Decimal :=
  let (num, den) := scaleDown 1 1 (2 - x.exponent)
  let value := 4 * x.significand * num
  let guess : Int := ((value.log2 : Int) - den.log2 - 1) * 30103 / 100000
  let point := pointOf value den 4 (guess - 1)
  dropZeros 20 (firstGrid x num den point 18 1)

end Binary64

structure Layout where
  /-- From how many digits before the point on the text has an exponent, if ever. -/
  exponentFrom : Option Int
  /-- Up to how many zeros after the point the text has no exponent, if there is a limit. -/
  zerosAtMost : Option Nat

namespace Layout

/-- Digits with a point after the first `point` of them, with zeros where digits are missing. -/
def positional (digits : List Char) (point : Int) : List Char :=
  match point with
  | .ofNat 0 => '0' :: '.' :: digits
  | .negSucc k => '0' :: '.' :: (List.replicate (k + 1) '0' ++ digits)
  | .ofNat n =>
    if n < digits.length then digits.take n ++ '.' :: digits.drop n
    else digits ++ List.replicate (n - digits.length) '0' ++ ['.', '0']

/-- Digits with a point after the first, then the exponent with its sign. -/
def scientific (digits : List Char) (point : Int) : List Char :=
  let mantissa :=
    match digits with
    | first :: second :: rest => first :: '.' :: second :: rest
    | _ => digits
  let exponent := point - 1
  mantissa ++ 'e' :: (if exponent < 0 then '-' else '+') :: Nat.toDigits 10 exponent.natAbs

def text (layout : Layout) (x : Binary64) : String :=
  let sign := if x.negative then ['-'] else []
  if x.isZero then String.ofList (sign ++ ['0', '.', '0'])
  else
    let d := x.shortest
    let digits := Nat.toDigits 10 d.digits
    let point : Int := digits.length + d.exponent
    let short := (layout.exponentFrom.all fun limit => point < limit)
      && (layout.zerosAtMost.all fun limit => -(limit : Int) ≤ point)
    String.ofList (sign ++ if short then positional digits point else scientific digits point)

end Layout

end ActionRegistry
