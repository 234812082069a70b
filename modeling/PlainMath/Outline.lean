import PlainMath.Tree.Weight

/-! A tree as an outline: one line for each node with an icon and a label, and
lines that lead from a node to its parts. -/
namespace PlainMath.Outline

def icon : Tree → String
  | .grid _ => "▦"
  | .row _ => "↔"
  | .cluster _ => "⋯"
  | .bracketed .. => "⟮"
  | .identifier _ => "𝑥"
  | .operator _ => "±"
  | .text _ => "¶"
  | .number _ => "#"
  | .fraction .. => "⁄"
  | .scripted .. => "⌃"
  | .root .. => "√"
  | .limits .. => "∑"
  | .stackedLimits .. => "∑"
  | .brace .over _ _ => "⏞"
  | .brace .under _ _ => "⏟"

def count (number : Nat) : String := String.ofList (Nat.toDigits 10 number)

def label : Tree → String
  | .grid rows => count rows.length ++ " rows"
  | .row elements => count elements.length ++ " elements"
  | .cluster elements => count elements.length ++ " elements"
  | .bracketed left right _ => left ++ " " ++ right
  | .identifier symbol => symbol
  | .operator symbol => symbol
  | .text content => content
  | .number numeral => numeral
  | .fraction .. => "fraction"
  | .scripted _ (some _) (some _) => "sub sup"
  | .scripted _ (some _) none => "sub"
  | .scripted _ none (some _) => "sup"
  | .scripted _ none none => "bare"
  | .root _ (some _) => "root"
  | .root _ none => "sqrt"
  | .limits glyph _ _ => glyph
  | .stackedLimits .. => "nested"
  | .brace .over _ _ => "over"
  | .brace .under _ _ => "under"

/-- Long labels are cut to thirty characters. -/
def short (text : String) : String :=
  if 30 < text.toList.length then String.ofList (text.toList.take 30) ++ "..." else text

def title (tree : Tree) : String := icon tree ++ " " ++ short (label tree)

/-- The lines of a part below the line of its parent; the last part closes the branch. -/
def branch (last : Bool) : List String → List String
  | [] => []
  | first :: rest =>
    ((if last then "└─ " else "├─ ") ++ first) :: rest.map ((if last then "  " else "│ ") ++ ·)

def branches : List (List String) → List String
  | [] => []
  | [only] => branch true only
  | first :: rest => branch false first ++ branches rest

def lines (tree : Tree) : List String :=
  title tree :: branches (tree.children.attach.map fun child =>
    have := Tree.weight_lt_of_mem_children child.2
    lines child.1)
termination_by tree.weight

def text (tree : Tree) : String := String.join ((lines tree).map (· ++ "\n"))

end PlainMath.Outline
