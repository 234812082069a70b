/-! Whole numbers spelled in a base of at most sixteen. -/
namespace PlainMath.Radix

def isHexDigit (c : Char) : Bool :=
  c.isDigit || ('a' ≤ c && c ≤ 'f') || ('A' ≤ c && c ≤ 'F')

def hexValue (c : Char) : Nat :=
  if c.isDigit then c.toNat - 48 else if 'a' ≤ c then c.toNat - 87 else c.toNat - 55

def hexDigit (digit : Nat) : Char :=
  if digit < 10 then Char.ofNat (48 + digit) else Char.ofNat (87 + digit)

def digits? (base : Nat) (digits : List Char) : Option Nat :=
  if digits ≠ [] ∧ digits.all (fun c => isHexDigit c && hexValue c < base) then
    some (digits.foldl (fun value c => base * value + hexValue c) 0)
  else
    none

end PlainMath.Radix
