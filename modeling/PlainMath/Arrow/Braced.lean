import PlainMath.Arrow.Mark
import PlainMath.Text.Split

/-! Marks become calls in the notation: what a mark spans is put between
`underbrace(comment;` and a closing parenthesis. Wide marks go first, so that
nested marks give nested calls; the columns of a later mark move along with every
insertion into its line. -/
namespace PlainMath.Arrow
open Text

structure Insertion where
  line : Nat
  start : Nat
  stop : Nat
  /-- what is written in front of the columns; a closing parenthesis is written behind them -/
  opening : List Char
deriving DecidableEq, Repr

namespace Insertion

def apply (insertion : Insertion) (line : List Char) : List Char :=
  line.take insertion.start ++ insertion.opening ++
    (line.drop insertion.start).take (insertion.stop - insertion.start) ++
      ')' :: line.drop insertion.stop

/-- Takes the closing parenthesis and then the opening out of a line again. -/
def revert (insertion : Insertion) (line : List Char) : List Char :=
  let size := insertion.opening.length
  let unclosed := line.eraseIdx (insertion.stop + size)
  unclosed.take insertion.start ++ unclosed.drop (insertion.start + size)

/-- Where a column that starts a mark has moved: a mark that starts inside stays inside. -/
def moveStart (insertion : Insertion) (column : Nat) : Nat :=
  if column < insertion.start then column
  else if column < insertion.stop then column + insertion.opening.length
  else column + insertion.opening.length + 1

def moveStop (insertion : Insertion) (column : Nat) : Nat :=
  if column ≤ insertion.start then column
  else if column ≤ insertion.stop then column + insertion.opening.length
  else column + insertion.opening.length + 1

def move (insertion : Insertion) (mark : Mark) : Mark :=
  if mark.line = insertion.line then
    { mark with start := insertion.moveStart mark.start, stop := insertion.moveStop mark.stop }
  else
    mark

end Insertion

/-- What opens the call for a mark. A mark without comment gets an empty quoted
name, since a missing first row would not count. -/
def opening (mark : Mark) : List Char :=
  (braceWord mark.side).toList ++ '(' ::
    ((if mark.comment = [] then "''".toList else mark.comment) ++ [';'])

def insertion? (mark : Mark) (length : Nat) : Option Insertion :=
  let start := min mark.start length
  let stop := min mark.stop length
  if start < stop then some ⟨mark.line, start, stop, opening mark⟩ else none

structure Progress where
  lines : List (List Char)
  insertions : List Insertion

/-- Brings a mark to where its columns are now and inserts its call. -/
def Progress.mark (progress : Progress) (mark : Mark) : Progress :=
  let moved := progress.insertions.foldl (fun mark insertion => insertion.move mark) mark
  match insertion? moved (progress.lines.getD moved.line []).length with
  | some insertion =>
    { lines := progress.lines.modify moved.line insertion.apply
      insertions := progress.insertions ++ [insertion] }
  | none => progress

/-- Wider marks first, equally wide ones in the order in which they are drawn. -/
def widestFirst (marks : List Mark) : List Mark :=
  marks.mergeSort fun first second => second.width ≤ first.width

structure Braced where
  /-- all lines, the arrow lines as they were -/
  lines : List (List Char)
  arrowLines : List Nat
  insertions : List Insertion

def braced (text : List Char) : Braced :=
  let drawn := lines text
  let progress := (widestFirst (marks drawn)).foldl Progress.mark ⟨drawn, []⟩
  { lines := progress.lines
    arrowLines := (drawn.zipIdx.filter fun numbered => isArrowLine numbered.1).map (·.2)
    insertions := progress.insertions }

namespace Braced

def text (braced : Braced) : List Char :=
  join ['\n'] <| braced.lines.zipIdx.map fun numbered =>
    if braced.arrowLines.contains numbered.2 then [] else numbered.1

end Braced
end PlainMath.Arrow
