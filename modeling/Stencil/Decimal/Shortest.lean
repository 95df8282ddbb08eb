/-!
# Shortest decimals

A binary floating-point number is written with the fewest decimal digits that are read back as the
same number; of several candidates with that many digits the nearest is taken. The search is done in
exact arithmetic: for one digit, two digits and so on it looks at the two multiples of a power of
ten around the number.
-/

namespace Stencil

/-- A positive number `units · 2 ^ power` with the numbers that are rounded to it: those between
`low` and `high` quarter units, the ends included if `closed` says so. -/
structure Binary where
  units : Nat
  power : Int
  low : Nat
  high : Nat
  closed : Bool

structure Decimal where
  digits : Nat
  power : Int
deriving DecidableEq

/-- Decodes a positive finite number of 64 bits. Right above a power of two the lower neighbour is
only half as far away as the upper one. -/
def Binary.ofBits (bits : UInt64) : Binary :=
  let fraction := bits.toNat % Nat.pow 2 52
  let exponent := bits.toNat / Nat.pow 2 52 % Nat.pow 2 11
  let units := if exponent = 0 then fraction else fraction + Nat.pow 2 52
  let power : Int := (max exponent 1 : Nat) - 1075
  let low := if fraction = 0 ∧ 1 < exponent then 4 * units - 1 else 4 * units - 2
  { units, power, low, high := 4 * units + 2, closed := units % 2 = 0 }

def Decimal.powerParts (base : Nat) (power : Int) : Nat × Nat :=
  (base.pow power.toNat, base.pow (-power).toNat)

def Decimal.leadingPower (numerator denominator : Nat) : Int :=
  if denominator ≤ numerator then ((Nat.toDigits 10 (numerator / denominator)).length : Int) - 1
  else
    let places := (Nat.toDigits 10 (denominator / numerator)).length
    -- The quotient is cut off, so the leading digit stands at this place or one further left.
    if denominator ≤ numerator * Nat.pow 10 (places - 1) then 1 - (places : Int) else -(places : Int)

/-- The best decimal with the given power of ten, if one of the two around the number is rounded to
it: the nearer, or of two equally near ones the even one. -/
def Binary.onGrid? (number : Binary) (power : Int) : Option Decimal :=
  let (twos, halves) := Decimal.powerParts 2 number.power
  let (tens, tenths) := Decimal.powerParts 10 power
  -- A quarter unit and a step of the grid, over a common denominator.
  let quarter := twos * tenths
  let step := 4 * halves * tens
  let below := 4 * number.units * quarter / step
  let fits := fun candidate =>
    let place := candidate * step
    if number.closed then number.low * quarter ≤ place && place ≤ number.high * quarter
    else number.low * quarter < place && place < number.high * quarter
  let toBelow := 4 * number.units * quarter - below * step
  let toAbove := (below + 1) * step - 4 * number.units * quarter
  let belowFits := below ≠ 0 && fits below
  let aboveFits := fits (below + 1)
  let preferBelow := toBelow < toAbove || (toBelow = toAbove && below % 2 = 0)
  if belowFits && (preferBelow || !aboveFits) then some ⟨below, power⟩
  else if aboveFits then some ⟨below + 1, power⟩
  else none

def Decimal.normalize (decimal : Decimal) : Decimal :=
  let digits := Nat.toDigits 10 decimal.digits
  let zeros := (digits.reverse.takeWhile (· = '0')).length
  ⟨decimal.digits / Nat.pow 10 zeros, decimal.power + zeros⟩

/-- The shortest decimal of a number. Seventeen digits are always enough. -/
def Binary.shortest (number : Binary) : Decimal :=
  let (twos, halves) := Decimal.powerParts 2 number.power
  let leading := Decimal.leadingPower (number.units * twos) halves
  let found := (List.range 17).findSome? fun more => number.onGrid? (leading - Int.ofNat more)
  (found.getD ⟨number.units * twos, 0⟩).normalize

end Stencil
