import PlainMath.Text.Blank
import PlainMath.Tree.Basic

/-! Arrows drawn in lines of their own, such as `<-- tail -->`, label the columns
that they span in a neighbouring line. A line holds arrows only if it starts with
an arrow head and ends with one; the label stands between two runs of at least
two dashes. -/
namespace PlainMath.Arrow
open Text

/-- Whether a line, apart from blanks around it, goes from an arrow head with two
dashes to another one. -/
def isArrowLine (line : List Char) : Bool :=
  let drawn := trim line
  "<--".toList.isPrefixOf drawn && "-->".toList.isSuffixOf drawn && 6 ≤ drawn.length &&
    !drawn.contains '\n'

def dashes (text : List Char) : Nat := (text.takeWhile (· == '-')).length

def head? (text : List Char) : Option Nat :=
  let count := dashes text
  if 2 ≤ count ∧ text[count]? = some '>' then some (count + 1) else none

/-- The shortest label in front of dashes and an arrow head, and the length of
the label with them. -/
def label? : List Char → Option (List Char × Nat)
  | [] => none
  | c :: rest =>
    match head? (c :: rest) with
    | some length => some ([], length)
    | none =>
      if c = '\n' then none
      else (label? rest).map fun found => (c :: found.1, found.2 + 1)

/-- The label of the arrow at the start of a text, and the length of the arrow.
All dashes behind the first head belong to it; only if no arrow follows that way,
the last two of them may belong to a second head. -/
def arrow? : List Char → Option (List Char × Nat)
  | '<' :: rest =>
    let count := dashes rest
    if count < 2 then
      none
    else match label? (rest.drop count) with
      | some (label, length) => some (label, 1 + count + length)
      | none =>
        if 4 ≤ count ∧ rest[count]? = some '>' then some ([], 1 + count + 1) else none
  | _ => none

structure Span where
  start : Nat
  stop : Nat
  label : List Char
deriving DecidableEq, Repr

/-- The arrows of a text whose first character is in the given column, from the
left and without overlap. -/
def spans (column : Nat) : List Char → List Span
  | [] => []
  | c :: rest =>
    match arrow? (c :: rest) with
    | some (label, length) =>
      ⟨column, column + length, trim label⟩ :: spans (column + length) (rest.drop (length - 1))
    | none => spans (column + 1) rest
termination_by text => text.length
decreasing_by
  · simp only [List.length_drop, List.length_cons]; omega
  · simp

/-- An arrow at its target: the columns of the target line that it labels, and
the side on which the label is drawn. -/
structure Mark where
  side : Side
  line : Nat
  start : Nat
  stop : Nat
  comment : List Char
deriving DecidableEq, Repr

def Mark.width (mark : Mark) : Nat := mark.stop - mark.start

def braceWord : Side → String
  | .over => "overbrace"
  | .under => "underbrace"

/-- The first line of a stack of arrow lines: arrow lines directly above belong to it. -/
def stackTop (lines : List (List Char)) : Nat → Nat
  | 0 => 0
  | index + 1 =>
    if (lines[index]?).any isArrowLine then stackTop lines index else index + 1

/-- The line that an arrow line labels. A stack of arrow lines at the top of the
text or under a blank line labels the next line with something else on it from
above, any other stack labels the line above it from below. -/
def target? (lines : List (List Char)) (index : Nat) : Option (Side × Nat) :=
  let top := stackTop lines index
  if top = 0 ∨ (lines[top - 1]?).any isBlankText then
    let later := (lines.drop (index + 1)).findIdx? fun line =>
      !isBlankText line && !isArrowLine line
    later.map fun offset => (.over, index + 1 + offset)
  else
    some (.under, top - 1)

def lineMarks (lines : List (List Char)) (line : List Char) (index : Nat) : List Mark :=
  if isArrowLine line then
    match target? lines index with
    | some (side, target) =>
      (spans 0 line).map fun span => ⟨side, target, span.start, span.stop, span.label⟩
    | none => []
  else
    []

def marks (lines : List (List Char)) : List Mark :=
  (lines.zipIdx.map fun numbered => lineMarks lines numbered.1 numbered.2).flatten

end PlainMath.Arrow
