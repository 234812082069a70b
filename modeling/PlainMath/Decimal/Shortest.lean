import PlainMath.Decimal.Binary

/-! The decimal with the fewest digits that is read back as a given binary value,
and of these the nearest one. -/
namespace PlainMath.Binary64

/-- How `a * 10 ^ i` compares with `b * 2 ^ j`. -/
def compareScaled (a : Nat) (i : Int) (b : Nat) (j : Int) : Ordering :=
  compare (a * Nat.pow 10 i.toNat * Nat.pow 2 (-j).toNat)
    (b * Nat.pow 2 j.toNat * Nat.pow 10 (-i).toNat)

/-- Whether `digits * 10 ^ power` lies among the numbers that are nearest to
`mantissa * 2 ^ exponent`. The ends of that interval belong to it when the
mantissa is even; below a power of two the interval is narrower. -/
def readsBack (mantissa : Nat) (exponent : Int) (digits : Nat) (power : Int) : Bool :=
  let least :=
    if mantissa = Nat.pow 2 52 ∧ -1074 < exponent then 4 * mantissa - 1 else 4 * mantissa - 2
  let low := compareScaled digits power least (exponent - 2)
  let high := compareScaled digits power (4 * mantissa + 2) (exponent - 2)
  let ends := mantissa % 2 = 0
  (low = .gt ∨ (ends ∧ low = .eq)) ∧ (high = .lt ∨ (ends ∧ high = .eq))

/-- The two neighbours of the value among the multiples of `10 ^ power`: the one
that is read back, the nearer one if both are, the upper one if they are equally near. -/
def onGrid? (mantissa : Nat) (exponent : Int) (power : Int) : Option Nat :=
  let numerator := mantissa * Nat.pow 2 exponent.toNat * Nat.pow 10 (-power).toNat
  let denominator := Nat.pow 2 (-exponent).toNat * Nat.pow 10 power.toNat
  let below := numerator / denominator
  match readsBack mantissa exponent below power, readsBack mantissa exponent (below + 1) power with
  | true, true =>
    if 2 * (numerator % denominator) < denominator then some below else some (below + 1)
  | true, false => some below
  | false, true => some (below + 1)
  | false, false => none

/-- Goes to ever finer grids of powers of ten, so many of them at most. -/
def search (mantissa : Nat) (exponent : Int) (power : Int) : Nat → Nat × Int
  | 0 => (mantissa * Nat.pow 2 exponent.toNat, 0)
  | more + 1 =>
    match onGrid? mantissa exponent power with
    | some digits => (digits, power)
    | none => search mantissa exponent (power - 1) more

def strip (digits : Nat) (power : Int) : Nat → Nat × Int
  | 0 => (digits, power)
  | more + 1 =>
    if digits % 10 = 0 ∧ digits ≠ 0 then strip (digits / 10) (power + 1) more else (digits, power)

def text : Binary64 → String
  | .finite negative mantissa exponent =>
    if mantissa = 0 then
      if negative then "-0" else "0"
    else
      let bound : Int := ((mantissa.log2 : Int) + exponent + 1) * 30103 / 100000 + 1
      let found := search mantissa exponent bound 800
      let short := strip found.1 found.2 20
      Decimal.positional ⟨negative, short.1, short.2⟩
  | .infinite negative => if negative then "-inf" else "inf"
  | .undefined => "NaN"

end PlainMath.Binary64
