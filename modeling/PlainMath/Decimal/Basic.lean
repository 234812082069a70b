/-! Decimal numerals: an optional sign, digits with an optional point among or
around them, and an optional power of ten. -/
namespace PlainMath

/-- The number `digits * 10 ^ exponent`, with a sign. -/
structure Decimal where
  negative : Bool
  digits : Nat
  exponent : Int
deriving DecidableEq, Repr

namespace Decimal

def digitValue (c : Char) : Nat := c.toNat - 48

def digitsValue (digits : List Char) : Nat :=
  digits.foldl (fun value c => 10 * value + digitValue c) 0

/-- An optional sign in front of a text; true for a minus. -/
def sign : List Char → Bool × List Char
  | '-' :: rest => (true, rest)
  | '+' :: rest => (false, rest)
  | rest => (false, rest)

def integer? (text : List Char) : Option Int :=
  let signed := sign text
  if signed.2 ≠ [] ∧ signed.2.all Char.isDigit then
    let value : Int := digitsValue signed.2
    some (if signed.1 then -value else value)
  else
    none

/-- The power of ten at the end of a numeral: nothing, or a letter e and a whole number. -/
def power? : List Char → Option Int
  | [] => some 0
  | c :: rest => if c = 'e' ∨ c = 'E' then integer? rest else none

/-- Digits, a point, digits and a power of ten, with a digit on at least one side
of the point; the point may be missing. -/
def read? (text : List Char) : Option Decimal :=
  let signed := sign text
  let whole := signed.2.takeWhile Char.isDigit
  let behind := signed.2.dropWhile Char.isDigit
  let fraction := match behind with
    | '.' :: rest => rest.takeWhile Char.isDigit
    | _ => []
  let rest := match behind with
    | '.' :: rest => rest.dropWhile Char.isDigit
    | _ => behind
  if whole = [] ∧ fraction = [] then
    none
  else
    (power? rest).map fun power =>
      { negative := signed.1
        digits := digitsValue (whole ++ fraction)
        exponent := power - fraction.length }

def digitsText (value : Nat) : List Char := Nat.toDigits 10 value

/-- The numeral without a power of ten: zeros fill up to the point. -/
def positional (decimal : Decimal) : String :=
  let digits := digitsText decimal.digits
  let magnitude :=
    if 0 ≤ decimal.exponent then
      if decimal.digits = 0 then digits
      else digits ++ List.replicate decimal.exponent.toNat '0'
    else
      let places := (-decimal.exponent).toNat
      let padded := List.replicate (places + 1 - digits.length) '0' ++ digits
      padded.take (padded.length - places) ++ '.' :: padded.drop (padded.length - places)
  String.ofList (if decimal.negative then '-' :: magnitude else magnitude)

end Decimal
end PlainMath
