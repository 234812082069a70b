import PlainMath.Tree.Weight

/-! Bounds in square brackets. A square bracket straight after an operator gives
it a lower and an upper limit, and further brackets stack further limits on it;
after an identifier or a bracket it is another way to write two scripts. -/
namespace PlainMath.Layout

def takesRange : Tree → Bool
  | .operator symbol => symbol != Glyph.fractionBar && symbol != Glyph.range
  | .limits .. => true
  | .stackedLimits .. => true
  | .bracketed .. => true
  | .identifier _ => true
  | _ => false

def rangeContents? : Tree → Option (Option Tree)
  | .bracketed left _ contents => if left = "[" then some contents else none
  | _ => none

/-- The two bounds: what stands before and what stands behind the first range
dots among the elements of a row. Without dots all of it is the lower bound. -/
def bounds : Option Tree → Tree × Option Tree
  | none => (.emptyRow, none)
  | some (.row elements) =>
    match elements.dropWhile (!·.isOperator Glyph.range) with
    | [] => (.row elements, none)
    | _ :: upper =>
      ((Tree.ofRow? (elements.takeWhile (!·.isOperator Glyph.range))).getD .emptyRow,
        Tree.ofRow? upper)
  | some other => (other, none)

def bound (target : Tree) (bounds : Tree × Option Tree) : Tree :=
  match target with
  | .operator symbol => .limits symbol bounds.1 bounds.2
  | .limits .. => .stackedLimits target bounds.1 bounds.2
  | .stackedLimits .. => .stackedLimits target bounds.1 bounds.2
  | base => .scripted base (some bounds.1) bounds.2

/-- Gives the target the bounds in the square brackets that follow it, one
bracket after the other, and then goes on with the next target. -/
def foldRanges : Tree → List Tree → List Tree
  | target, [] => [target]
  | target, next :: rest =>
    match rangeContents? next with
    | some contents =>
      if takesRange target then
        foldRanges (bound target (bounds contents)) rest
      else
        target :: foldRanges next rest
    | none => target :: foldRanges next rest

def ranges : Tree → Tree
  | .cluster (first :: rest) => .cluster (foldRanges first rest)
  | tree => tree

open PlainMath.Tree

theorem optionWeight_ofRow?_le (elements : List Tree) :
    optionWeight (ofRow? elements) ≤ 1 + listWeight elements := by
  unfold ofRow?
  split <;> simp only [optionWeight, weight, listWeight] <;> omega

theorem weight_ofRow?_getD_le (elements : List Tree) :
    ((ofRow? elements).getD emptyRow).weight ≤ 1 + listWeight elements := by
  unfold ofRow?
  split <;> simp only [Option.getD_none, Option.getD_some, emptyRow, weight, listWeight] <;> omega

theorem weight_bounds_le (contents : Option Tree) :
    (bounds contents).1.weight + optionWeight (bounds contents).2 ≤ 1 + optionWeight contents := by
  unfold bounds
  split
  · simp [emptyRow, weight, listWeight, optionWeight]
  · rename_i elements
    split
    · simp only [weight, optionWeight]; omega
    · rename_i dots upper parts
      have whole := List.takeWhile_append_dropWhile
        (p := fun element : Tree => !element.isOperator Glyph.range) (l := elements)
      have total : listWeight elements =
          listWeight (elements.takeWhile (!·.isOperator Glyph.range)) +
            listWeight (dots :: upper) := by
        rw [← listWeight_append, ← parts, whole]
      have low := weight_ofRow?_getD_le (elements.takeWhile (!·.isOperator Glyph.range))
      have high := optionWeight_ofRow?_le upper
      have := weight_pos dots
      simp only [weight, optionWeight, total, listWeight]
      omega
  · simp only [optionWeight]; omega

theorem weight_bound_le (target : Tree) (limits : Tree × Option Tree) :
    (bound target limits).weight ≤ 1 + target.weight + limits.1.weight + optionWeight limits.2 := by
  unfold bound
  split <;> simp only [weight, optionWeight] <;> omega

theorem weight_rangeContents? {tree : Tree} {contents : Option Tree}
    (found : rangeContents? tree = some contents) : tree.weight = 1 + optionWeight contents := by
  unfold rangeContents? at found
  split at found
  · split at found
    · cases found
      simp only [weight]
    · cases found
  · cases found

theorem listWeight_foldRanges_le (target : Tree) (rest : List Tree) :
    listWeight (foldRanges target rest) ≤ 1 + target.weight + listWeight rest := by
  induction rest generalizing target with
  | nil => simp [foldRanges, listWeight]
  | cons next rest ih =>
    have kept := ih next
    unfold foldRanges
    split
    · rename_i contents found
      split
      · have folded := ih (bound target (bounds contents))
        have := weight_bound_le target (bounds contents)
        have := weight_bounds_le contents
        have := weight_rangeContents? found
        simp only [listWeight]
        omega
      · simp only [listWeight]; omega
    · simp only [listWeight]; omega

theorem weight_ranges_le (tree : Tree) : (ranges tree).weight ≤ tree.weight := by
  unfold ranges
  split
  · rename_i first rest
    have := listWeight_foldRanges_le first rest
    simp only [weight, listWeight]
    omega
  · exact Nat.le_refl _

end PlainMath.Layout
