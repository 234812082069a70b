import PlainMath.Tree.Weight

/-! Roots: a radical takes the element behind it. Its lower bound, if it was
given one in square brackets, is the index of the root. -/
namespace PlainMath.Layout

/-- Whether a tree is a radical, and with which index. -/
def radical? : Tree → Option (Option Tree)
  | .operator symbol => if symbol = Glyph.radical then some none else none
  | .limits glyph lower _ => if glyph = Glyph.radical then some (some lower) else none
  | _ => none

def rootStep (element : Tree) (done : List Tree) : List Tree :=
  match radical? element, done with
  | some index, radicand :: rest => .root radicand.unwrap index :: rest
  | _, _ => element :: done

/-- From the right, so that a root of a root takes the inner one. -/
def foldRoots (elements : List Tree) : List Tree := elements.foldr rootStep []

def roots : Tree → Tree
  | .row elements => .row (foldRoots elements)
  | .cluster elements => .cluster (foldRoots elements)
  | tree => tree

open PlainMath.Tree

theorem optionWeight_radical?_le {tree : Tree} {index : Option Tree}
    (found : radical? tree = some index) : optionWeight index ≤ tree.weight := by
  unfold radical? at found
  split at found
  · split at found
    · cases found
      simp [optionWeight]
    · cases found
  · split at found
    · cases found
      simp only [optionWeight, weight]; omega
    · cases found
  · cases found

theorem listWeight_rootStep_le (element : Tree) (done : List Tree) :
    listWeight (rootStep element done) ≤ 1 + element.weight + listWeight done := by
  unfold rootStep
  split
  · rename_i index radicand rest found
    have := optionWeight_radical?_le found
    have := weight_unwrap_le radicand
    simp only [listWeight, weight]
    omega
  · simp only [listWeight]; omega

theorem listWeight_foldRoots_le (elements : List Tree) :
    listWeight (foldRoots elements) ≤ listWeight elements := by
  induction elements with
  | nil => simp [foldRoots]
  | cons element elements ih =>
    have := listWeight_rootStep_le element (foldRoots elements)
    simp only [foldRoots, List.foldr_cons, listWeight] at this ih ⊢
    omega

theorem weight_roots_le (tree : Tree) : (roots tree).weight ≤ tree.weight := by
  unfold roots
  split
  · rename_i elements
    have := listWeight_foldRoots_le elements
    simp only [weight]; omega
  · rename_i elements
    have := listWeight_foldRoots_le elements
    simp only [weight]; omega
  · exact Nat.le_refl _

end PlainMath.Layout
