import PlainMath.Decimal.Binary
import PlainMath.Decimal.Radix
import PlainMath.Text.Split

/-! Numerals: whole numbers of 64 bits in several bases, and decimals. Single
underscores may stand between digits. -/
namespace PlainMath.Toml

/-- Digits with single underscores between them, without the underscores. -/
def grouped? (isDigit : Char → Bool) (text : List Char) : Option (List Char) :=
  let groups := Text.splitOn ['_'] text
  if groups.all fun group => group ≠ [] && group.all isDigit then some groups.flatten else none

/-- Decimal digits, without a zero in front of others. -/
def whole? (text : List Char) : Option (List Char) :=
  (grouped? Char.isDigit text).filter fun digits => digits.length = 1 || digits.head? ≠ some '0'

def fits (value : Int) : Bool := -(Int.pow 2 63) ≤ value && value < Int.pow 2 63

def signed (negative : Bool) (digits : List Char) : Int :=
  if negative then -Decimal.digitsValue digits else Decimal.digitsValue digits

def inBase? (base : Nat) (text : List Char) : Option Int :=
  ((grouped? Radix.isHexDigit text).bind (Radix.digits? base)).map Int.ofNat

def integer? (token : List Char) : Option Int :=
  let value? : Option Int := match token with
    | '0' :: 'x' :: rest => inBase? 16 rest
    | '0' :: 'o' :: rest => inBase? 8 rest
    | '0' :: 'b' :: rest => inBase? 2 rest
    | _ =>
      let parts := Decimal.sign token
      (whole? parts.2).map (signed parts.1)
  value?.filter fits

def isPowerMark (c : Char) : Bool := c = 'e' || c = 'E'

def power? : List Char → Option Int
  | [] => some 0
  | _ :: text =>
    let parts := Decimal.sign text
    (grouped? Char.isDigit parts.2).map (signed parts.1)

/-- A number with a fraction or a power of ten. -/
def decimal? (token : List Char) : Option Decimal :=
  let parts := Decimal.sign token
  let significand := parts.2.takeWhile (!isPowerMark ·)
  let power := parts.2.dropWhile (!isPowerMark ·)
  let whole := significand.takeWhile (· ≠ '.')
  let fraction? : Option (List Char) := match significand.dropWhile (· ≠ '.') with
    | [] => if power = [] then none else some []
    | _ :: fraction => grouped? Char.isDigit fraction
  do
    let whole ← whole? whole
    let fraction ← fraction?
    let power ← power? power
    return ⟨parts.1, Decimal.digitsValue (whole ++ fraction), power - fraction.length⟩

/-- A decimal may lie below all values of the type, but not above them. -/
def floating? (token : List Char) : Option Binary64 :=
  let parts := Decimal.sign token
  if parts.2 = "inf".toList then some (.infinite parts.1)
  else if parts.2 = "nan".toList then some .undefined
  else ((decimal? token).map Decimal.nearest).filter (· ≠ .infinite false)

end PlainMath.Toml
