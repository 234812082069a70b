import PlainMath.Decimal.Basic

/-! Numbers with 53 binary digits: the value nearest to a decimal, and the
rounding of a value to a whole number. -/
namespace PlainMath

inductive Binary64 where
  /-- the value `mantissa * 2 ^ exponent`, with a sign -/
  | finite (negative : Bool) (mantissa : Nat) (exponent : Int)
  | infinite (negative : Bool)
  | undefined
deriving DecidableEq, Repr

def roundEven (numerator denominator : Nat) : Nat :=
  let quotient := numerator / denominator
  let twice := 2 * (numerator % denominator)
  if twice < denominator ∨ (twice = denominator ∧ quotient % 2 = 0) then quotient
  else quotient + 1

namespace Decimal

/-- Nearest in binary to the fraction `numerator / denominator`, which is not zero.
A mantissa that is rounded up to 54 digits loses its last one, which is zero. -/
def nearestFraction (negative : Bool) (numerator denominator : Nat) : Binary64 :=
  let guess : Int := (numerator.log2 : Int) - denominator.log2 - 53
  let above (exponent : Int) : Bool :=
    denominator * Nat.pow 2 (53 + exponent).toNat ≤ numerator * Nat.pow 2 (-(53 + exponent)).toNat
  let exponent := max (if above guess then guess + 1 else guess) (-1074)
  let mantissa := roundEven (numerator * Nat.pow 2 (-exponent).toNat)
    (denominator * Nat.pow 2 exponent.toNat)
  let value := if mantissa = Nat.pow 2 53 then (Nat.pow 2 52, exponent + 1) else (mantissa, exponent)
  if 971 < value.2 then .infinite negative else .finite negative value.1 value.2

/-- The nearest value with 53 binary digits. Powers of ten far out of the range
are decided by the number of digits alone. -/
def nearest (decimal : Decimal) : Binary64 :=
  let magnitude := (digitsText decimal.digits).length + decimal.exponent
  if decimal.digits = 0 ∨ magnitude < -400 then .finite decimal.negative 0 0
  else if 400 < magnitude then .infinite decimal.negative
  else nearestFraction decimal.negative (decimal.digits * Nat.pow 10 decimal.exponent.toNat)
    (Nat.pow 10 (-decimal.exponent).toNat)

end Decimal

namespace Binary64

def isZero : Binary64 → Bool
  | .finite _ mantissa _ => mantissa = 0
  | _ => false

def isFinite : Binary64 → Bool
  | .finite .. => true
  | _ => false

/-- The nearest natural number below a limit, halves upwards. What is negative
or undefined counts as zero, and what is too large as the limit. -/
def roundNat (limit : Nat) : Binary64 → Nat
  | .finite negative mantissa exponent =>
    if negative then 0
    else
      let denominator := Nat.pow 2 (-exponent).toNat
      min limit ((2 * mantissa * Nat.pow 2 exponent.toNat + denominator) / (2 * denominator))
  | .infinite negative => if negative then 0 else limit
  | .undefined => 0

end Binary64
end PlainMath
