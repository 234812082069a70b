import PlainMath.Proofs.Layout.Loops

/-! Every pass comes to the end of its walk, whatever the tree. A visit can leave more nodes than
there were, and nodes further down, all of which are still to be walked over; but the weight of a
tree never grows by a visit, and it falls from a node to each of its parts. -/
namespace PlainMath

namespace Tree

def height (tree : Tree) : Nat :=
  1 + (tree.children.attach.map fun child =>
    have := weight_lt_of_mem_children child.2
    child.1.height).foldr max 0
termination_by tree.weight

theorem height_eq (tree : Tree) : tree.height = 1 + (tree.children.map height).foldr max 0 := by
  rw [height]
  simp

end Tree

namespace Layout
open PlainMath.Tree

/-- The walk in place over the first tree ends, and the second one is its outcome. The visit has an
outcome, and so have the walks over all parts of what it collapses to. -/
inductive Pass.Walks (pass : Pass) : Tree → Tree → Prop
  | node {tree visited : Tree} {walk : Tree → Tree} : pass.visitInPlace tree = some visited →
      (∀ child ∈ visited.collapse.children, pass.Walks child (walk child)) →
      pass.Walks tree (visited.collapse.mapChildren walk)

theorem walks_iff {pass : Pass} {tree outcome : Tree} :
    pass.Walks tree outcome ↔ outcome = pass.apply tree := by
  constructor
  · intro walks
    induction walks with
    | node found _ ih =>
      rw [visitInPlace_eq, Option.some.injEq] at found
      rw [Pass.apply_eq, found]
      exact mapChildren_congr ih
  · rintro rfl
    induction tree using pass.induct with
    | step tree ih =>
      rw [Pass.apply_eq]
      exact .node (visitInPlace_eq pass tree) ih

theorem collapse_visit_unbased {symbol : String} (other : symbol ≠ Glyph.subscript)
    (script : Tree) :
    (Pass.subscripts.visit
        (.cluster [.operator symbol, .operator Glyph.subscript, script])).collapse =
      .cluster [.operator symbol, .scripted (.identifier "") (some script.unwrap) none] := by
  have folded : subscriptRule.fold [.operator symbol, .operator Glyph.subscript, script] =
      [.operator symbol, .scripted (.identifier "") (some script.unwrap) none] := by
    rw [fold_eq_fromRight]
    simp [ScriptRule.fromRight, subscriptRule, isOperator, isOperand, other]
  simp [Pass.visit, subscripts, folded, implicitSubscripts, collapse]

theorem exists_visit_grows : ∃ (pass : Pass) (tree : Tree),
    tree.nodes.length < (pass.visit tree).collapse.nodes.length ∧
      tree.height < (pass.visit tree).collapse.height := by
  -- a blank base is one node more, and it stands below the node that takes the sign's place
  refine ⟨.subscripts, .cluster [.operator "+", .operator Glyph.subscript, .identifier "x"], ?_⟩
  rw [collapse_visit_unbased (by decide)]
  simp [nodes_eq, height_eq, children, unwrap]

/-- All walks end. The weight of a tree is a measure for all passes at once: it does not grow from a
node to what a visit makes of it, where both the number of nodes and the height can, and it falls
from a node to each part. In place, the visit of each pass has an outcome at every node, with all
indices in range, and the walk has one at every tree, which is that of the pass. -/
theorem walk_terminates :
    (∀ (pass : Pass) (tree : Tree), (pass.visit tree).collapse.weight ≤ tree.weight) ∧
    (∀ tree : Tree, ∀ child ∈ tree.children, child.weight < tree.weight) ∧
    (∃ (pass : Pass) (tree : Tree), tree.nodes.length < (pass.visit tree).collapse.nodes.length ∧
      tree.height < (pass.visit tree).collapse.height) ∧
    (∀ (pass : Pass) (tree : Tree), pass.visitInPlace tree = some (pass.visit tree)) ∧
    ∀ (pass : Pass) (tree outcome : Tree), pass.Walks tree outcome ↔ outcome = pass.apply tree :=
  ⟨Pass.weight_collapse_visit_le, fun _ _ => weight_lt_of_mem_children, exists_visit_grows,
    visitInPlace_eq, fun _ _ _ => walks_iff⟩

theorem walk_terminates_blank_base :
    Tree.identifier "x" ∈
        (Tree.cluster [.operator "+", .operator Glyph.subscript, .identifier "x"]).children ∧
      (Tree.identifier "x").weight <
        (Tree.cluster [.operator "+", .operator Glyph.subscript, .identifier "x"]).weight ∧
      Pass.subscripts.Walks (.cluster [.operator "+", .operator Glyph.subscript, .identifier "x"])
        (.cluster [.operator "+", .scripted (.identifier "") (some (.identifier "x")) none]) := by
  have member : Tree.identifier "x" ∈
      (Tree.cluster [.operator "+", .operator Glyph.subscript, .identifier "x"]).children := by
    simp [children]
  refine ⟨member, walk_terminates.2.1 _ _ member, (walk_terminates.2.2.2.2 _ _ _).mpr ?_⟩
  rw [Pass.apply_eq, collapse_visit_unbased (by decide)]
  simp [unwrap, mapChildren, Pass.apply_eq, Pass.visit, subscripts, collapse]

end Layout
end PlainMath
