/-! Sets of characters as ranges of codes. -/
namespace PlainMath.Text

def isWithin (ranges : List (Nat × Nat)) (c : Char) : Bool :=
  ranges.any fun range => range.1 ≤ c.toNat && c.toNat ≤ range.2

end PlainMath.Text
