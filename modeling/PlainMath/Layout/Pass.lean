import PlainMath.Layout.Braces
import PlainMath.Layout.Fractions
import PlainMath.Layout.Operators
import PlainMath.Layout.Ranges
import PlainMath.Layout.Roots
import PlainMath.Tree.Walk

/-! The nine passes of layout. Each pass goes once over the whole tree from the
root down: it visits a node, lets a row or cluster that is left with one element
become that element, and goes on with the parts of the outcome. No visit makes a
tree heavier, so the walk ends. -/
namespace PlainMath.Layout

inductive Pass where
  | invisibleProduct
  | subscripts
  | exponents
  | ranges
  | roots
  | fractions
  | operatorMeaning
  | operatorSuperscripts
  | braces
deriving DecidableEq, Repr

end PlainMath.Layout

namespace PlainMath.Layout.Pass

/-- All passes in the order in which they run: bounds need folded scripts, roots
need bounds, and the meaning of operators depends on what is left of them. -/
def all : List Pass :=
  [.invisibleProduct, .subscripts, .exponents, .ranges, .roots, .fractions, .operatorMeaning,
    .operatorSuperscripts, .braces]

def name : Pass → String
  | .invisibleProduct => "invisible-product"
  | .subscripts => "subscripts"
  | .exponents => "exponents"
  | .ranges => "ranges"
  | .roots => "roots"
  | .fractions => "fractions"
  | .operatorMeaning => "operator-meaning"
  | .operatorSuperscripts => "operator-superscripts"
  | .braces => "braces"

def ofName? (name : String) : Option Pass := all.find? (·.name == name)

def visit : Pass → Tree → Tree
  | .invisibleProduct => Layout.invisibleProduct
  | .subscripts => Layout.subscripts
  | .exponents => Layout.exponents
  | .ranges => Layout.ranges
  | .roots => Layout.roots
  | .fractions => Layout.fractions
  | .operatorMeaning => Layout.operatorMeaning
  | .operatorSuperscripts => Layout.operatorSuperscripts
  | .braces => Layout.braces

theorem weight_collapse_visit_le (pass : Pass) (tree : Tree) :
    (pass.visit tree).collapse.weight ≤ tree.weight := by
  have light {folded : Tree} (bound : folded.weight ≤ tree.weight) :
      folded.collapse.weight ≤ tree.weight :=
    Nat.le_trans (Tree.weight_collapse_le folded) bound
  cases pass with
  | invisibleProduct => exact light (weight_invisibleProduct_le tree)
  | subscripts => exact light (weight_subscripts_le tree)
  | exponents => exact light (weight_exponents_le tree)
  | ranges => exact light (weight_ranges_le tree)
  | roots => exact light (weight_roots_le tree)
  | fractions => exact weight_collapse_fractions_le tree
  | operatorMeaning => exact light (Nat.le_of_eq (weight_operatorMeaning tree))
  | operatorSuperscripts => exact light (weight_operatorSuperscripts_le tree)
  | braces => exact light (weight_braces_le tree)

def apply (pass : Pass) (tree : Tree) : Tree :=
  (pass.visit tree).collapse.attachMap fun child member =>
    have := Tree.weight_lt_of_mem_children member
    have := pass.weight_collapse_visit_le tree
    pass.apply child
termination_by tree.weight

theorem apply_eq (pass : Pass) (tree : Tree) :
    pass.apply tree = (pass.visit tree).collapse.mapChildren pass.apply := by
  rw [apply, Tree.attachMap_eq]

/-- Induction along the walk: a property that a tree has if all parts of what the visit makes of it
have it holds of every tree. These parts are lighter than the tree, but need not be parts of it. -/
theorem induct {P : Tree → Prop} (pass : Pass)
    (step : ∀ tree, (∀ child ∈ (pass.visit tree).collapse.children, P child) → P tree)
    (tree : Tree) : P tree :=
  step tree fun child member =>
    have := Tree.weight_lt_of_mem_children member
    have := pass.weight_collapse_visit_le tree
    pass.induct step child
termination_by tree.weight

end PlainMath.Layout.Pass

namespace PlainMath.Tree

def layout (tree : Tree) : Tree :=
  Layout.Pass.all.foldl (fun folded pass => pass.apply folded) tree

end PlainMath.Tree
