import PlainMath.Markup.OfTree
import PlainMath.Proofs.Markup.Balanced
import PlainMath.Proofs.Tree.Built

/-! What the markup of all trees has in common. A property of markup holds of it as soon as it
holds of the lines that single nodes are written on and passes from parts to their element. -/
namespace PlainMath

def Tree.texts : Tree → List String
  | .identifier own | .operator own | .text own | .number own => [own]
  | .bracketed left right _ => [left, right]
  | .limits glyph _ _ => [glyph]
  | _ => []

namespace Markup

/-- The property holds of a line with a text that is fine, of the two lines that show a text of
their own, and of an element with all its parts. -/
structure Draws (fine : String → Prop) (Q : Markup → Prop) : Prop where
  nothing : fine ""
  overbrace : fine Glyph.overbrace
  underbrace : fine Glyph.underbrace
  atom : ∀ {tag property content}, tag ∈ tags → Property property → fine content →
    Q (.line [.filled tag property content])
  quotation : ∀ {content}, fine content → Q (quotation content)
  differential : Q (operator Glyph.differential)
  gap : Q (operator Glyph.subscript)
  element : ∀ {tag parts}, tag ∈ tags → (∀ part ∈ parts, Q part) → Q (.element tag none parts)

theorem property_none : Property none := by simp [Property]

namespace Draws
variable {fine : String → Prop} {Q : Markup → Prop} (law : Draws fine Q)
include law

theorem filled {tag content : String} (known : tag ∈ tags) (good : fine content) :
    Q (filled tag content) := law.atom known property_none good

theorem empty : Q empty := law.filled (by decide) law.nothing

theorem identifier {symbol : String} (good : fine symbol) : Q (identifier symbol) := by
  have upright : Property (some ("mathvariant", "normal")) := by simp [Property]
  unfold Markup.identifier
  split
  · split
    · exact law.atom (by decide) upright good
    · exact law.filled (by decide) good
  · exact law.filled (by decide) good

theorem operator {symbol : String} (good : fine symbol) : Q (operator symbol) := by
  by_cases differential : symbol = Glyph.differential
  · exact differential ▸ law.differential
  · by_cases gap : symbol = Glyph.subscript
    · exact gap ▸ law.gap
    · rw [Markup.operator, if_neg differential, if_neg gap]
      exact law.filled (by decide) good

theorem fence {delimiter : String} (good : fine delimiter) : ∀ part ∈ fence delimiter, Q part := by
  have drawn : Property (some ("fence", "true")) := by simp [Property]
  unfold Markup.fence
  split
  · simp
  · simpa using law.atom (by decide) drawn good

theorem limits {base lower : Markup} {upper : Option Markup} (baseHolds : Q base)
    (lowerHolds : Q lower) (upperHolds : ∀ part ∈ upper, Q part) : Q (limits base lower upper) := by
  cases upper with
  | none => exact law.element (by decide) (by simpa using ⟨baseHolds, lowerHolds⟩)
  | some upper =>
    have upperHolds := upperHolds upper rfl
    exact law.element (by decide) (by simpa using ⟨baseHolds, lowerHolds, upperHolds⟩)

theorem scripts {base : Markup} {subscript superscript : Option Markup} (baseHolds : Q base)
    (subHolds : ∀ part ∈ subscript, Q part) (superHolds : ∀ part ∈ superscript, Q part) :
    Q (scripts base subscript superscript) := by
  cases subscript with
  | none =>
    cases superscript with
    | none => exact baseHolds
    | some sup => exact law.element (by decide) (by simpa using ⟨baseHolds, superHolds sup rfl⟩)
  | some sub =>
    have subHolds := subHolds sub rfl
    cases superscript with
    | none => exact law.element (by decide) (by simpa using ⟨baseHolds, subHolds⟩)
    | some sup =>
      have superHolds := superHolds sup rfl
      exact law.element (by decide) (by simpa using ⟨baseHolds, subHolds, superHolds⟩)

theorem root {radicand : Markup} {index : Option Markup} (inner : Q radicand)
    (indexHolds : ∀ part ∈ index, Q part) : Q (root radicand index) := by
  cases index with
  | none => exact law.element (by decide) (by simpa using inner)
  | some index => exact law.element (by decide) (by simpa using ⟨inner, indexHolds index rfl⟩)

theorem brace (side : Side) {base comment : Markup} (baseHolds : Q base)
    (commentHolds : Q comment) : Q (brace side base comment) := by
  match side with
  | .over =>
    have inner : Q (.element "mover" none [base, .filled "mo" Glyph.overbrace]) :=
      law.element (by decide) (by simpa using ⟨baseHolds, law.filled (by decide) law.overbrace⟩)
    exact law.element (by decide) (by simpa using ⟨inner, commentHolds⟩)
  | .under =>
    have inner : Q (.element "munder" none [base, .filled "mo" Glyph.underbrace]) :=
      law.element (by decide) (by simpa using ⟨baseHolds, law.filled (by decide) law.underbrace⟩)
    exact law.element (by decide) (by simpa using ⟨inner, commentHolds⟩)

theorem sequence {parts : List Markup} (all : ∀ part ∈ parts, Q part) : Q (sequence parts) := by
  match parts with
  | [] => exact law.empty
  | [only] => exact all only (by simp)
  | _ :: _ :: _ => exact law.element (by decide) all

theorem table {rows : List (List Markup)} (all : ∀ cells ∈ rows, ∀ cell ∈ cells, Q cell) :
    Q (table rows) := by
  match rows with
  | [] => exact law.empty
  | first :: rows =>
    refine law.element (by decide) fun row member => ?_
    obtain ⟨cells, listed, rfl⟩ := List.mem_map.mp member
    refine law.element (by decide) fun entry member => ?_
    obtain ⟨cell, place, rfl⟩ := List.mem_map.mp member
    exact law.element (by decide) (by simpa using all cells listed cell place)

theorem node {tree : Tree} (own : ∀ text ∈ tree.texts, fine text)
    (below : ∀ child ∈ tree.children, Q child.markup) : Q tree.markup := by
  have listed {trees : List Tree} (all : ∀ tree ∈ trees, Q tree.markup) :
      ∀ part ∈ Tree.listMarkup trees, Q part := by
    rw [Tree.listMarkup_eq]
    exact List.forall_mem_map.mpr all
  have optional {option : Option Tree} (all : ∀ tree ∈ option.toList, Q tree.markup) :
      ∀ part ∈ Tree.optionMarkup option, Q part := by
    cases option with
    | none => simp [Tree.optionMarkup]
    | some tree => simpa [Tree.optionMarkup] using all
  cases tree with
  | grid rows =>
    refine law.table ?_
    rw [Tree.rowsMarkup_eq]
    refine List.forall_mem_map.mpr fun cells row => List.forall_mem_map.mpr fun cell place => ?_
    exact below cell (List.mem_flatten_of_mem row place)
  | row elements => exact law.sequence (listed below)
  | cluster elements => exact law.sequence (listed below)
  | bracketed left right contents =>
    refine law.element (by decide) ?_
    refine List.forall_mem_append.mpr ⟨List.forall_mem_append.mpr ⟨?_, ?_⟩, ?_⟩
    · exact law.fence (own left (by simp [Tree.texts]))
    · exact fun part member => optional below part (Option.mem_toList.mp member)
    · exact law.fence (own right (by simp [Tree.texts]))
  | identifier symbol => exact law.identifier (own symbol (by simp [Tree.texts]))
  | operator symbol => exact law.operator (own symbol (by simp [Tree.texts]))
  | text content => exact law.quotation (own content (by simp [Tree.texts]))
  | number numeral => exact law.filled (by decide) (own numeral (by simp [Tree.texts]))
  | fraction numerator denominator =>
    have both : Q numerator.markup ∧ Q denominator.markup := by simpa [Tree.children] using below
    exact law.element (by decide) (by simpa using both)
  | scripted base subscript superscript =>
    obtain ⟨base, others⟩ := List.forall_mem_cons.mp below
    obtain ⟨sub, super⟩ := List.forall_mem_append.mp others
    exact law.scripts base (optional sub) (optional super)
  | root radicand index =>
    obtain ⟨radicand, index⟩ := List.forall_mem_cons.mp below
    exact law.root radicand (optional index)
  | limits glyph lower upper =>
    have large : Property (some ("largeop", "true")) := by simp [Property]
    obtain ⟨lower, upper⟩ := List.forall_mem_cons.mp below
    exact law.limits (law.atom (by decide) large (own glyph (by simp [Tree.texts]))) lower
      (optional upper)
  | stackedLimits base lower upper =>
    obtain ⟨base, others⟩ := List.forall_mem_cons.mp below
    obtain ⟨lower, upper⟩ := List.forall_mem_cons.mp others
    exact law.limits base lower (optional upper)
  | brace side base comment =>
    have both : Q base.markup ∧ Q comment.markup := by simpa [Tree.children] using below
    exact law.brace side both.1 both.2

theorem markup {tree : Tree} (own : ∀ node ∈ tree.nodes, ∀ text ∈ node.texts, fine text) :
    Q tree.markup := by
  induction tree using Tree.induct with
  | step tree ih =>
    rw [Tree.nodes_eq, List.forall_mem_cons] at own
    refine law.node own.1 fun child member => ih child member fun node inside => ?_
    exact own.2 node (List.mem_flatMap.mpr ⟨child, member, inside⟩)

end Draws
end Markup
end PlainMath
