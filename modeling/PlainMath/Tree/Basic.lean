import PlainMath.Glyph

/-! The expression tree. Reading builds grids, rows, clusters, brackets and
leaves; layout folds runs of siblings into the other kinds. The texts of leaves
are ready for markup: glyphs are entities already and raw text is escaped. -/
namespace PlainMath

inductive Side where
  | over
  | under
deriving DecidableEq, Repr

inductive Tree where
  /-- rows of cells -/
  | grid (rows : List (List Tree))
  /-- elements with blanks between them -/
  | row (elements : List Tree)
  /-- elements bound tightly, without blanks -/
  | cluster (elements : List Tree)
  | bracketed (left right : String) (contents : Option Tree)
  | identifier (symbol : String)
  | operator (symbol : String)
  | text (content : String)
  | number (numeral : String)
  | fraction (numerator denominator : Tree)
  | scripted (base : Tree) (subscript superscript : Option Tree)
  | root (radicand : Tree) (index : Option Tree)
  /-- bounds on a large operator glyph -/
  | limits (glyph : String) (lower : Tree) (upper : Option Tree)
  /-- bounds on another construct, usually on limits again -/
  | stackedLimits (base lower : Tree) (upper : Option Tree)
  | brace (side : Side) (base comment : Tree)

namespace Tree

def emptyGrid : Tree := .grid []

def emptyRow : Tree := .row []

/-- No elements make no row, and a single element stands for itself. -/
def ofRow? : List Tree → Option Tree
  | [] => none
  | [only] => some only
  | elements => some (.row elements)

def ofCluster? : List Tree → Option Tree
  | [] => none
  | [only] => some only
  | elements => some (.cluster elements)

/-- Brackets without any delimiter are just what they hold. -/
def ofBrackets? (left right : String) (contents : Option Tree) : Option Tree :=
  if left = "" ∧ right = "" then contents else some (.bracketed left right contents)

/-- A single cell in a single row stands for itself. -/
def ofRows : List (List Tree) → Tree
  | [[only]] => only
  | rows => .grid rows

def operator? : Tree → Option String
  | .operator symbol => some symbol
  | _ => none

def isOperator (symbol : String) (tree : Tree) : Bool :=
  match tree with
  | .operator own => own == symbol
  | _ => false

/-- Anything but an operator can be scripted or raised. -/
def isOperand : Tree → Bool
  | .operator _ => false
  | _ => true

def isEmptyGrid : Tree → Bool
  | .grid [] => true
  | _ => false

def leftDelimiter? : Tree → Option String
  | .bracketed left _ _ => some left
  | _ => none

/-- Takes off one level of brackets; empty brackets stay. -/
def unwrap : Tree → Tree
  | .bracketed _ _ (some contents) => contents
  | tree => tree

/-- A row or cluster of a single element becomes that element. -/
def collapse : Tree → Tree
  | .row [only] => only
  | .cluster [only] => only
  | tree => tree

def elements? : Tree → Option (List Tree)
  | .row elements => some elements
  | .cluster elements => some elements
  | _ => none

def clusterElements? : Tree → Option (List Tree)
  | .cluster elements => some elements
  | _ => none

/-- The last element of a row or a cluster, and what is left without it. -/
def pop? : Tree → Option (Tree × Tree)
  | .row elements => elements.getLast?.map (·, .row elements.dropLast)
  | .cluster elements => elements.getLast?.map (·, .cluster elements.dropLast)
  | _ => none

/-- The direct parts of a tree from left to right, the base before its scripts and bounds. -/
def children : Tree → List Tree
  | .grid rows => rows.flatten
  | .row elements => elements
  | .cluster elements => elements
  | .bracketed _ _ contents => contents.toList
  | .identifier _ | .operator _ | .text _ | .number _ => []
  | .fraction numerator denominator => [numerator, denominator]
  | .scripted base subscript superscript => base :: (subscript.toList ++ superscript.toList)
  | .root radicand index => radicand :: index.toList
  | .limits _ lower upper => lower :: upper.toList
  | .stackedLimits base lower upper => base :: lower :: upper.toList
  | .brace _ base comment => [base, comment]

def mapChildren (f : Tree → Tree) : Tree → Tree
  | .grid rows => .grid (rows.map (·.map f))
  | .row elements => .row (elements.map f)
  | .cluster elements => .cluster (elements.map f)
  | .bracketed left right contents => .bracketed left right (contents.map f)
  | .identifier symbol => .identifier symbol
  | .operator symbol => .operator symbol
  | .text content => .text content
  | .number numeral => .number numeral
  | .fraction numerator denominator => .fraction (f numerator) (f denominator)
  | .scripted base subscript superscript =>
      .scripted (f base) (subscript.map f) (superscript.map f)
  | .root radicand index => .root (f radicand) (index.map f)
  | .limits glyph lower upper => .limits glyph (f lower) (upper.map f)
  | .stackedLimits base lower upper => .stackedLimits (f base) (f lower) (upper.map f)
  | .brace side base comment => .brace side (f base) (f comment)

def kindName : Tree → String
  | .grid _ => "Grid"
  | .row _ => "Row"
  | .cluster _ => "Cluster"
  | .bracketed .. => "Bracketed"
  | .identifier _ => "Identifier"
  | .operator _ => "Operator"
  | .text _ => "Text"
  | .number _ => "Number"
  | .fraction .. => "Fraction"
  | .scripted .. => "Scripted"
  | .root .. => "Root"
  | .limits .. => "Limits"
  | .stackedLimits .. => "Limits"
  | .brace .over _ _ => "Overbrace"
  | .brace .under _ _ => "Underbrace"

@[simp] theorem children_mapChildren (f : Tree → Tree) (tree : Tree) :
    (tree.mapChildren f).children = tree.children.map f := by
  cases tree with
  | grid rows => simp [mapChildren, children, List.map_flatten]
  | bracketed left right contents => cases contents <;> rfl
  | scripted base subscript superscript => cases subscript <;> cases superscript <;> rfl
  | root radicand index => cases index <;> rfl
  | limits glyph lower upper => cases upper <;> rfl
  | stackedLimits base lower upper => cases upper <;> rfl
  | _ => rfl

end Tree
end PlainMath
