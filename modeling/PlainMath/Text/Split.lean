/-! Cutting a text at every occurrence of a separator, and gluing pieces
together again. Occurrences are taken from the left and do not overlap. -/
namespace PlainMath.Text

def consFirst (c : Char) : List (List Char) → List (List Char)
  | [] => [[c]]
  | piece :: pieces => (c :: piece) :: pieces

/-- The pieces between the occurrences of `separator`. There is always at
least one piece, and an empty separator cuts nothing. -/
def splitOn (separator : List Char) (text : List Char) : List (List Char) :=
  match text with
  | [] => [[]]
  | c :: rest =>
    if separator ≠ [] ∧ separator.isPrefixOf (c :: rest) then
      [] :: splitOn separator (rest.drop (separator.length - 1))
    else
      consFirst c (splitOn separator rest)
termination_by text.length
decreasing_by
  · simp only [List.length_drop, List.length_cons]; omega
  · simp

def lines (text : List Char) : List (List Char) := splitOn ['\n'] text

/-- The pieces with `separator` between neighbours. -/
def join (separator : List Char) : List (List Char) → List Char
  | [] => []
  | [piece] => piece
  | piece :: pieces => piece ++ separator ++ join separator pieces

def replaceAll (old new text : List Char) : List Char := join new (splitOn old text)

end PlainMath.Text
