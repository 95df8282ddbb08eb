import Stencil.Json.Value

/-!
# JSON numbers

A number without point and exponent that fits into 64 bits is an integer. Any other number becomes a
floating-point number: its digits are collected in 64 bits as long as they fit, and the result is
scaled by powers of ten.
-/

namespace Stencil.Json

def maxDigits : Nat :=
  Nat.pow 2 64 - 1

/-- The digits of a number read so far, as `significand · 10 ^ power`. -/
structure Digits where
  significand : Nat
  power : Int
  /-- Whether a digit did not fit, so that no further one of this part is taken in. -/
  full : Bool

def digitValue (digit : Char) : Nat :=
  digit.toNat - '0'.toNat

def Digits.addWhole (digits : Digits) (digit : Char) : Digits :=
  let larger := digits.significand * 10 + digitValue digit
  if digits.full || maxDigits < larger then
    { digits with power := digits.power + 1, full := true }
  else { digits with significand := larger }

def Digits.addFraction (digits : Digits) (digit : Char) : Digits :=
  let larger := digits.significand * 10 + digitValue digit
  if digits.full || maxDigits < larger then { digits with full := true }
  else { digits with significand := larger, power := digits.power - 1 }

def powerOfTen (power : Nat) : Float :=
  Float.ofScientific 1 false power

def scaleDown (value : Float) (power : Nat) : Float :=
  if power ≤ 308 then value / powerOfTen power
  else if value == 0.0 then value
  else scaleDown (value / powerOfTen 308) (power - 308)
termination_by power

def Digits.toFloat? (digits : Digits) : Option Float :=
  let value := (UInt64.ofNat digits.significand).toFloat
  if digits.power < 0 then some (scaleDown value (-digits.power).toNat)
  else if digits.significand = 0 then some value
  else if 308 < digits.power then none
  else
    let scaled := value * powerOfTen digits.power.toNat
    if scaled.isInf then none else some scaled

def cutDigits? (text : List Char) : Option (List Char × List Char) :=
  match text.takeWhile Char.isDigit with
  | [] => none
  | digits => some (digits, text.dropWhile Char.isDigit)

def exponent? (text : List Char) : Option Int := do
  let (negative, text) := match text with
    | '+' :: rest => (false, rest)
    | '-' :: rest => (true, rest)
    | rest => (false, rest)
  let (digits, rest) ← cutDigits? text
  if rest.isEmpty then
    let size : Nat := digits.foldl (fun size digit => size * 10 + digitValue digit) 0
    some (if negative then -size else size)
  else none

def signed? (negative : Bool) (digits : Digits) : Option Json := do
  let value ← digits.toFloat?
  some (.float (if negative then -value else value))

def withExponent? (negative : Bool) (digits : Digits) (rest : List Char) : Option Json := do
  match rest with
  | [] => signed? negative digits
  | mark :: rest =>
    if mark = 'e' || mark = 'E' then
      let exponent ← exponent? rest
      signed? negative { digits with power := digits.power + exponent }
    else none

def whole? (negative : Bool) (digits : Digits) : Option Json :=
  if digits.full then signed? negative digits
  else if !negative then some (.integer digits.significand)
  else if 0 < digits.significand ∧ digits.significand ≤ Nat.pow 2 63 then
    some (.integer (-digits.significand))
  else signed? negative digits

/-- The number that a text consists of. A zero in front of other digits is not allowed, and digits
have to stand on both sides of a point. -/
def number? (text : List Char) : Option Json := do
  let (negative, text) := match text with
    | '-' :: rest => (true, rest)
    | rest => (false, rest)
  let (whole, rest) ← cutDigits? text
  if whole.head? = some '0' ∧ whole.length ≠ 1 then none
  else
    let digits := whole.foldl Digits.addWhole ⟨0, 0, false⟩
    match rest with
    | [] => whole? negative digits
    | '.' :: rest =>
      let (fraction, rest) ← cutDigits? rest
      withExponent? negative (fraction.foldl Digits.addFraction { digits with full := false }) rest
    | rest => withExponent? negative digits rest

end Stencil.Json
