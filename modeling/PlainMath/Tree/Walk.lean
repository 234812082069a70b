import PlainMath.Tree.Weight

/-! Changing the direct parts of a tree by a function that may use that they are
parts of it, which is what a walk by recursion on the weight needs. -/
namespace PlainMath.Tree

def attachMap : (tree : Tree) → ((child : Tree) → child ∈ tree.children → Tree) → Tree
  | .grid rows, f =>
    .grid (rows.attach.map fun cells => cells.1.attach.map fun child =>
      f child.1 (List.mem_flatten_of_mem cells.2 child.2))
  | .row elements, f => .row (elements.attach.map fun child => f child.1 child.2)
  | .cluster elements, f => .cluster (elements.attach.map fun child => f child.1 child.2)
  | .bracketed left right none, _ => .bracketed left right none
  | .bracketed left right (some contents), f =>
    .bracketed left right (some (f contents (by simp [children])))
  | .identifier symbol, _ => .identifier symbol
  | .operator symbol, _ => .operator symbol
  | .text content, _ => .text content
  | .number numeral, _ => .number numeral
  | .fraction numerator denominator, f =>
    .fraction (f numerator (by simp [children])) (f denominator (by simp [children]))
  | .scripted base subscript superscript, f =>
    .scripted (f base (by simp [children]))
      (subscript.attach.map fun child =>
        f child.1 (by simp [children, Option.mem_toList.mpr child.2]))
      (superscript.attach.map fun child =>
        f child.1 (by simp [children, Option.mem_toList.mpr child.2]))
  | .root radicand index, f =>
    .root (f radicand (by simp [children]))
      (index.attach.map fun child =>
        f child.1 (by simp [children, Option.mem_toList.mpr child.2]))
  | .limits glyph lower upper, f =>
    .limits glyph (f lower (by simp [children]))
      (upper.attach.map fun child =>
        f child.1 (by simp [children, Option.mem_toList.mpr child.2]))
  | .stackedLimits base lower upper, f =>
    .stackedLimits (f base (by simp [children])) (f lower (by simp [children]))
      (upper.attach.map fun child =>
        f child.1 (by simp [children, Option.mem_toList.mpr child.2]))
  | .brace side base comment, f =>
    .brace side (f base (by simp [children])) (f comment (by simp [children]))

theorem attachMap_eq (f : Tree → Tree) (tree : Tree) :
    (tree.attachMap fun child _ => f child) = tree.mapChildren f := by
  cases tree with
  | grid rows => simp [attachMap, mapChildren]
  | bracketed left right contents => cases contents <;> rfl
  | scripted base subscript superscript =>
    cases subscript <;> cases superscript <;> simp [attachMap, mapChildren]
  | root radicand index => cases index <;> simp [attachMap, mapChildren]
  | limits glyph lower upper => cases upper <;> simp [attachMap, mapChildren]
  | stackedLimits base lower upper => cases upper <;> simp [attachMap, mapChildren]
  | _ => simp [attachMap, mapChildren]

theorem mapChildren_congr {f g : Tree → Tree} {tree : Tree}
    (same : ∀ child ∈ tree.children, f child = g child) :
    tree.mapChildren f = tree.mapChildren g := by
  rw [← attachMap_eq, ← attachMap_eq]
  exact congrArg tree.attachMap (funext fun child => funext (same child))

def nodes (tree : Tree) : List Tree :=
  tree :: tree.children.attach.flatMap fun child =>
    have := weight_lt_of_mem_children child.2
    child.1.nodes
termination_by tree.weight

end PlainMath.Tree
