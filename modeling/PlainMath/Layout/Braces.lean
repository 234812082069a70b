import PlainMath.Tree.Weight

/-! Labelled braces: a brace operator in front of a bracket with exactly two
grid rows, the comment and what is braced. -/
namespace PlainMath.Layout

def braceSide? : Tree → Option Side
  | .operator symbol =>
    if symbol = Glyph.overbrace then some .over
    else if symbol = Glyph.underbrace then some .under
    else none
  | _ => none

/-- The two rows of a bracket that holds just these. -/
def twoRows? : Tree → Option (List Tree × List Tree)
  | .bracketed _ _ (some (.grid [first, second])) => some (first, second)
  | _ => none

/-- A grid row as one tree: its only cell, or all cells side by side. -/
def sideBySide : List Tree → Tree
  | [only] => only
  | cells => .row cells

def braceStep (element : Tree) (done : List Tree) : List Tree :=
  match braceSide? element, done with
  | some side, bracket :: rest =>
    match twoRows? bracket with
    | some (comment, base) => .brace side (sideBySide base) (sideBySide comment) :: rest
    | none => element :: done
  | _, _ => element :: done

def foldBraces (elements : List Tree) : List Tree := elements.foldr braceStep []

def braces : Tree → Tree
  | .row elements => .row (foldBraces elements)
  | .cluster elements => .cluster (foldBraces elements)
  | tree => tree

open PlainMath.Tree

theorem weight_sideBySide_le (cells : List Tree) :
    (sideBySide cells).weight ≤ 1 + listWeight cells := by
  unfold sideBySide
  split <;> simp only [weight, listWeight] <;> omega

theorem weight_twoRows? {tree : Tree} {first second : List Tree}
    (found : twoRows? tree = some (first, second)) :
    tree.weight = 2 + listWeight first + listWeight second := by
  unfold twoRows? at found
  split at found
  · cases found
    simp only [weight, optionWeight, rowsWeight]
    omega
  · cases found

theorem listWeight_braceStep_le (element : Tree) (done : List Tree) :
    listWeight (braceStep element done) ≤ 1 + element.weight + listWeight done := by
  unfold braceStep
  split
  · rename_i side bracket rest _
    split
    · rename_i comment base found
      have := weight_twoRows? found
      have := weight_sideBySide_le comment
      have := weight_sideBySide_le base
      have := weight_pos element
      simp only [listWeight, weight]
      omega
    · simp only [listWeight]; omega
  · simp only [listWeight]; omega

theorem listWeight_foldBraces_le (elements : List Tree) :
    listWeight (foldBraces elements) ≤ listWeight elements := by
  induction elements with
  | nil => simp [foldBraces]
  | cons element elements ih =>
    have := listWeight_braceStep_le element (foldBraces elements)
    simp only [foldBraces, List.foldr_cons, listWeight] at this ih ⊢
    omega

theorem weight_braces_le (tree : Tree) : (braces tree).weight ≤ tree.weight := by
  unfold braces
  split
  · rename_i elements
    have := listWeight_foldBraces_le elements
    simp only [weight]; omega
  · rename_i elements
    have := listWeight_foldBraces_le elements
    simp only [weight]; omega
  · exact Nat.le_refl _

end PlainMath.Layout
