import PlainMath.Tree.Weight

/-! Fractions: the first bar with something on both sides cuts a row or a
cluster in two. A further bar is left to the denominator. -/
namespace PlainMath.Layout

def side (elements : List Tree) : Tree :=
  ((Tree.ofCluster? elements).map Tree.unwrap).getD .emptyRow

/-- What stands before and behind the first bar, unless it ends the elements.
A bar in front of everything is not looked at. -/
def cutAtBar? : List Tree → Option (List Tree × List Tree)
  | [] => none
  | first :: rest =>
    match rest.dropWhile (!·.isOperator Glyph.fractionBar) with
    | _ :: next :: behind =>
      some (first :: rest.takeWhile (!·.isOperator Glyph.fractionBar), next :: behind)
    | _ => none

def foldFraction (elements : List Tree) : List Tree :=
  match cutAtBar? elements with
  | some (before, behind) => [.fraction (side before) (side behind)]
  | none => elements

def fractions : Tree → Tree
  | .row elements => .row (foldFraction elements)
  | .cluster elements => .cluster (foldFraction elements)
  | tree => tree

open PlainMath.Tree

theorem weight_side_le (elements : List Tree) :
    (side elements).weight ≤ 1 + listWeight elements := by
  unfold side ofCluster?
  split
  · simp [emptyRow, weight]
  · rename_i only
    have := weight_unwrap_le only
    simp only [Option.map_some, Option.getD_some, listWeight]; omega
  · simp [unwrap, weight]

theorem listWeight_cutAtBar? {elements before behind : List Tree}
    (found : cutAtBar? elements = some (before, behind)) :
    2 + listWeight before + listWeight behind ≤ listWeight elements := by
  unfold cutAtBar? at found
  split at found
  · cases found
  · rename_i first rest
    split at found
    · rename_i bar next behind' parts
      cases found
      have whole := List.takeWhile_append_dropWhile
        (p := fun element : Tree => !element.isOperator Glyph.fractionBar) (l := rest)
      have total : listWeight rest =
          listWeight (rest.takeWhile (!·.isOperator Glyph.fractionBar)) +
            listWeight (bar :: next :: behind') := by
        rw [← listWeight_append, ← parts, whole]
      have := weight_pos bar
      simp only [listWeight, total]
      omega
    · cases found

theorem weight_collapse_fractions_le (tree : Tree) :
    (fractions tree).collapse.weight ≤ tree.weight := by
  have folded (elements : List Tree) :
      foldFraction elements = elements ∨
        ∃ whole : Tree, foldFraction elements = [whole] ∧
          whole.weight ≤ 1 + listWeight elements := by
    unfold foldFraction
    split
    · rename_i before behind found
      have := listWeight_cutAtBar? found
      have := weight_side_le before
      have := weight_side_le behind
      exact .inr ⟨_, rfl, by simp only [weight]; omega⟩
    · exact .inl rfl
  unfold fractions
  split
  · rename_i elements
    rcases folded elements with same | ⟨whole, single, light⟩
    · rw [same]; exact weight_collapse_le _
    · simpa only [single, collapse, weight] using light
  · rename_i elements
    rcases folded elements with same | ⟨whole, single, light⟩
    · rw [same]; exact weight_collapse_le _
    · simpa only [single, collapse, weight] using light
  · exact weight_collapse_le _

end PlainMath.Layout
