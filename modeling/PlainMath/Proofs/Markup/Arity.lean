import PlainMath.Proofs.Layout.Shape
import PlainMath.Proofs.Markup.Census
import PlainMath.Proofs.Markup.WellFormed

/-! Elements with a fixed number of parts: fractions, scripts, roots with an index, bounds and
braces. Every argument of such an element is written as one element, with one exception: a
differential on its own is written as a space and a letter. So the number of parts is right
throughout if and only if no differential is an argument on its own. -/
namespace PlainMath.Markup

def arity? (tag : String) : Option Nat :=
  if tag ∈ ["mfrac", "msub", "msup", "mroot", "munder", "mover"] then some 2
  else if tag ∈ ["msubsup", "munderover"] then some 3
  else none

def Tally.Complete (tally : Tally) : Prop := ∀ count ∈ arity? tally.tag, tally.parts = count

instance (tally : Tally) : Decidable tally.Complete :=
  inferInstanceAs (Decidable (∀ count ∈ arity? tally.tag, tally.parts = count))

def Complete (markup : Markup) : Prop := ∀ tally ∈ markup.tallies, tally.Complete

theorem complete_line {atoms : List Atom} (free : ∀ atom ∈ atoms, arity? (atomTag atom) = none) :
    Complete (.line atoms) := by
  intro tally member
  rw [tallies, List.mem_map] at member
  obtain ⟨atom, listed, rfl⟩ := member
  intro count fixed
  rw [free atom listed] at fixed
  cases fixed

theorem complete_element {tag : String} {property : Option (String × String)}
    {parts : List Markup} : Complete (.element tag property parts) ↔
      (∀ part ∈ parts, part.Complete) ∧ Tally.Complete ⟨tag, (parts.map width).sum⟩ := by
  unfold Complete
  rw [tallies, listTallies_eq, List.forall_mem_append, List.forall_mem_singleton,
    List.forall_mem_flatMap]

theorem complete_group {tag : String} (free : arity? tag = none)
    {property : Option (String × String)} {parts : List Markup} :
    Complete (.element tag property parts) ↔ ∀ part ∈ parts, part.Complete := by
  rw [complete_element, and_iff_left]
  intro count fixed
  rw [free] at fixed
  cases fixed

theorem complete_fixed {tag : String} {count : Nat} (fixed : arity? tag = some count)
    {property : Option (String × String)} {parts : List Markup} :
    Complete (.element tag property parts) ↔
      (∀ part ∈ parts, part.Complete) ∧ (parts.map width).sum = count := by
  rw [complete_element]
  simp [Tally.Complete, fixed]

theorem complete_filled {tag content : String} {property : Option (String × String)}
    (free : arity? tag = none) : Complete (.line [.filled tag property content]) :=
  complete_line (by simpa [atomTag] using free)

theorem complete_identifier (symbol : String) : (identifier symbol).Complete := by
  unfold identifier
  split
  · split <;> exact complete_filled (by decide)
  · exact complete_filled (by decide)

theorem complete_operator (symbol : String) : (operator symbol).Complete := by
  unfold operator
  split
  · exact complete_line (by decide)
  · split
    · exact complete_line (by decide)
    · exact complete_filled (by decide)

theorem complete_fence (delimiter : String) : ∀ part ∈ fence delimiter, part.Complete := by
  unfold fence
  split
  · simp
  · simpa using complete_filled (by decide)

theorem complete_empty : empty.Complete := complete_filled (by decide)

theorem complete_sequence {parts : List Markup} :
    (sequence parts).Complete ↔ ∀ part ∈ parts, part.Complete := by
  match parts with
  | [] => simpa [sequence] using complete_empty
  | [only] => simp [sequence]
  | _ :: _ :: _ => exact complete_group (by decide)

theorem complete_table {rows : List (List Markup)} :
    (table rows).Complete ↔ ∀ cell ∈ rows.flatten, cell.Complete := by
  match rows with
  | [] => simpa [table] using complete_empty
  | first :: rows =>
    have cell (markup : Markup) : Complete (.element "mtd" none [markup]) ↔ markup.Complete := by
      rw [complete_group (by decide), List.forall_mem_singleton]
    have row (cells : List Markup) :
        Complete (.element "mtr" none (cells.map fun cell => .element "mtd" none [cell])) ↔
          ∀ cell ∈ cells, cell.Complete := by
      rw [complete_group (by decide), List.forall_mem_map]
      simp only [cell]
    unfold table
    rw [complete_group (by decide), List.forall_mem_map, List.forall_mem_flatten]
    simp only [row]

theorem complete_brace (side : Side) {base comment : Markup} :
    (brace side base comment).Complete ↔
      (base.Complete ∧ comment.Complete) ∧ base.width = 1 ∧ comment.width = 1 := by
  have nested {tag : String} (fixed : arity? tag = some 2) (symbol : String) :
      Complete (.element tag none [.element tag none [base, filled "mo" symbol], comment]) ↔
        (base.Complete ∧ comment.Complete) ∧ base.width = 1 ∧ comment.width = 1 := by
    have drawn : (filled "mo" symbol).Complete := complete_filled (by decide)
    simp only [complete_fixed fixed, List.forall_mem_cons, List.map_cons, List.map_nil,
      List.sum_cons, List.sum_nil, width, filled, List.length_cons, List.length_nil] at drawn ⊢
    grind
  cases side
  · exact nested (by decide) _
  · exact nested (by decide) _

theorem width_identifier (symbol : String) : (identifier symbol).width = 1 := by
  unfold identifier
  split
  · split <;> rfl
  · rfl

theorem width_operator (symbol : String) :
    (operator symbol).width = if symbol = Glyph.differential then 2 else 1 := by
  unfold operator
  split
  · rfl
  · split <;> rfl

end PlainMath.Markup

namespace PlainMath.Tree
open PlainMath.Markup

/-- The parts from which the node makes elements with a fixed number of parts. -/
def arguments : Tree → List Tree
  | .grid _ | .row _ | .cluster _ | .bracketed .. | .root _ none => []
  | tree => tree.children

def isDifferential (tree : Tree) : Bool := tree.isOperator Glyph.differential

theorem width_markup {tree : Tree} (sized : tree.Sized) :
    tree.markup.width = if tree.isDifferential then 2 else 1 := by
  have several {elements : List Tree} (several : elements.length ≠ 1) :
      (sequence (listMarkup elements)).width = 1 := by
    match elements with
    | [] => rfl
    | [only] => exact absurd rfl several
    | _ :: _ :: _ => rfl
  cases tree with
  | grid rows =>
    cases rows with
    | nil => rfl
    | cons cells rows => rfl
  | row elements => exact several sized
  | cluster elements => exact several (Nat.ne_of_gt sized)
  | identifier symbol => exact width_identifier symbol
  | operator symbol => simpa [isDifferential, isOperator, markup] using width_operator symbol
  | scripted base subscript superscript =>
    cases subscript with
    | some subscript => cases superscript <;> rfl
    | none =>
      cases superscript with
      | some superscript => rfl
      | none => simp [Sized] at sized
  | root radicand index => cases index <;> rfl
  | limits glyph lower upper => cases upper <;> rfl
  | stackedLimits base lower upper => cases upper <;> rfl
  | brace side base comment => cases side <;> rfl
  | bracketed | text | number | fraction => rfl

theorem sum_width {trees : List Tree} (sized : ∀ tree ∈ trees, tree.Sized) :
    ((trees.map markup).map width).sum = trees.length + trees.countP isDifferential := by
  induction trees with
  | nil => rfl
  | cons tree trees ih =>
    obtain ⟨first, rest⟩ := List.forall_mem_cons.mp sized
    rw [List.map_cons, List.map_cons, List.sum_cons, ih rest, width_markup first,
      List.length_cons, List.countP_cons]
    split <;> omega

theorem complete_append (tag : String) (front : List Markup) {trees : List Tree} {count : Nat}
    (fixed : arity? tag = some count) (size : front.length + trees.length = count)
    (around : ∀ part ∈ front, part.width = 1 ∧ part.Complete)
    (sized : ∀ tree ∈ trees, tree.Sized) :
    Complete (.element tag none (front ++ trees.map markup)) ↔
      (∀ tree ∈ trees, tree.isDifferential = false) ∧ ∀ tree ∈ trees, tree.markup.Complete := by
  have given : (front.map width).sum = front.length := by
    have ones : front.map width = List.replicate front.length 1 :=
      List.eq_replicate_iff.mpr
        ⟨List.length_map _, by simpa using fun part member => (around part member).1⟩
    rw [ones, List.sum_replicate_nat, Nat.mul_one]
  have absent : trees.countP isDifferential = 0 ↔ ∀ tree ∈ trees, tree.isDifferential = false := by
    simp [List.countP_eq_zero]
  rw [complete_fixed fixed, List.map_append, List.sum_append, sum_width sized, given, ← absent,
    List.forall_mem_append, List.forall_mem_map,
    and_iff_right fun part member => (around part member).2, and_comm]
  refine and_congr_left' ?_
  omega

theorem complete_markup {tree : Tree} (here : tree.Sized)
    (sized : ∀ child ∈ tree.children, child.Sized) :
    tree.markup.Complete ↔ (∀ argument ∈ tree.arguments, argument.isDifferential = false) ∧
      ∀ child ∈ tree.children, child.markup.Complete := by
  cases tree with
  | grid rows =>
    simp only [markup, complete_table, rowsMarkup_eq, arguments, children]
    rw [← List.map_flatten, List.forall_mem_map]
    simp
  | row elements => simp [markup, complete_sequence, listMarkup_eq, arguments, children]
  | cluster elements => simp [markup, complete_sequence, listMarkup_eq, arguments, children]
  | bracketed left right contents =>
    simp only [markup, complete_group (show arity? "mrow" = none by decide), optionMarkup_eq,
      List.forall_mem_append, arguments, children]
    rw [and_iff_left (complete_fence right), and_iff_right (complete_fence left)]
    cases contents <;> simp
  | identifier symbol => simpa [markup, arguments, children] using complete_identifier symbol
  | operator symbol => simpa [markup, arguments, children] using complete_operator symbol
  | text content =>
    have line : (quotation content).Complete := complete_filled (by decide)
    simpa [markup, arguments, children] using line
  | number numeral =>
    have line : (filled "mn" numeral).Complete := complete_filled (by decide)
    simpa [markup, arguments, children] using line
  | fraction numerator denominator => exact complete_append "mfrac" [] rfl rfl nofun sized
  | scripted base subscript superscript =>
    match subscript, superscript with
    | none, none => simp [Sized] at here
    | none, some superscript => exact complete_append "msup" [] rfl rfl nofun sized
    | some subscript, none => exact complete_append "msub" [] rfl rfl nofun sized
    | some subscript, some superscript => exact complete_append "msubsup" [] rfl rfl nofun sized
  | root radicand index =>
    cases index with
    | none =>
      have single : (Markup.root radicand.markup none).Complete ↔ radicand.markup.Complete := by
        rw [Markup.root, complete_group (by decide), List.forall_mem_singleton]
      simpa [markup, optionMarkup, arguments, children] using single
    | some index => exact complete_append "mroot" [] rfl rfl nofun sized
  | limits glyph lower upper =>
    have large : ∀ part ∈ [largeOperator glyph], part.width = 1 ∧ part.Complete :=
      List.forall_mem_singleton.mpr ⟨rfl, complete_filled (by decide)⟩
    cases upper with
    | none => exact complete_append "munder" _ rfl rfl large sized
    | some upper => exact complete_append "munderover" _ rfl rfl large sized
  | stackedLimits base lower upper =>
    cases upper with
    | none => exact complete_append "munder" [] rfl rfl nofun sized
    | some upper => exact complete_append "munderover" [] rfl rfl nofun sized
  | brace side base comment =>
    have single {tree : Tree} (sized : tree.Sized) :
        tree.markup.width = 1 ↔ tree.isDifferential = false := by
      rw [width_markup sized]
      split <;> simp_all
    rw [markup, complete_brace, single (sized base (by simp [children])),
      single (sized comment (by simp [children])), and_comm]
    simp [arguments, children]

theorem arguments_subset (tree : Tree) : tree.arguments ⊆ tree.children := by
  unfold arguments
  split <;> simp

theorem complete_markup_iff {tree : Tree} (sized : ∀ node ∈ tree.nodes, node.Sized) :
    tree.markup.Complete ↔
      ∀ node ∈ tree.nodes, ∀ argument ∈ node.arguments, argument.isDifferential = false := by
  induction tree using Tree.induct with
  | step tree ih =>
    rw [nodes_eq, List.forall_mem_cons, List.forall_mem_flatMap] at sized
    rw [complete_markup sized.1 fun child member => sized.2 child member child (mem_nodes_self child),
      nodes_eq, List.forall_mem_cons, List.forall_mem_flatMap]
    exact and_congr_right' (forall₂_congr fun child member => ih child member (sized.2 child member))

end PlainMath.Tree

namespace PlainMath
open PlainMath.Markup PlainMath.Tree

theorem sized_compileTree (source : String) (options : Options) :
    ∀ node ∈ (compileTree source options).nodes, node.Sized := by
  rcases Layout.built_layout_parse filled_foldable filled_readable
    (preprocess source options.tabWidth) with empty | built
  · have nothing : compileTree source options = .emptyGrid := empty
    rw [nothing, nodes_eq]
    simpa [emptyGrid, children] using wellShaped_emptyGrid.sized
  · exact built.forall_nodes wellShaped_emptyRow.sized fun built => built.here.sized

theorem proper_compileTree (source : String) (options : Options) :
    Proper (compileTree source options).markup := by
  rcases Layout.built_layout_parse ready_foldable ready_readable
    (preprocess source options.tabWidth) with empty | built
  · have nothing : compileTree source options = .emptyGrid := empty
    rw [nothing]
    exact proper_draws.empty
  · exact proper_markup built

theorem census_compile (source : String) (options : Options)
    (quiet : options.pretty = true → '<' ∉ options.indent.toList) :
    census (compile source options).toList =
      ((compileTree source options).rootMarkup options.mode).tallies := by
  have style : Quiet options.style := by
    unfold Options.style
    split
    · rename_i pretty
      exact quiet pretty
    · trivial
  have named : Property (some ("display", options.mode.name)) := by
    cases options.mode <;> simp [Property, DisplayMode.name]
  refine census_text (surveyed_element style (by decide) named ?_)
  exact List.forall_mem_singleton.mpr (surveyed_of_proper style (proper_compileTree source options))

/-- Fractions, scripts, roots, bounds and braces have the right number of parts if and only if none
of their arguments is a differential on its own, the only argument that is not written as one
element. The text has just these elements, as long as the indentation does not bring in tags of
its own. -/
theorem compile_complete_iff (source : String) (options : Options) :
    (((compileTree source options).rootMarkup options.mode).Complete ↔
      ∀ node ∈ (compileTree source options).nodes, ∀ argument ∈ node.arguments,
        argument.isDifferential = false) ∧
    (∀ node ∈ (compileTree source options).nodes, ∀ argument ∈ node.arguments,
      argument.markup.width = if argument.isDifferential then 2 else 1) ∧
    ((options.pretty = true → '<' ∉ options.indent.toList) →
      census (compile source options).toList =
        ((compileTree source options).rootMarkup options.mode).tallies) := by
  have sized := sized_compileTree source options
  refine ⟨?_, ?_, census_compile source options⟩
  · rw [← complete_markup_iff sized, rootMarkup, complete_group (by decide),
      List.forall_mem_singleton]
  · intro node member argument listed
    exact width_markup (sized argument (mem_nodes_of_mem_children member (arguments_subset node listed)))

theorem compile_complete_iff_tabs : '<' ∉ "\t".toList ∧
    census (compile "x^2/(\\d x)" ⟨.block, true, "\t", 4⟩).toList =
      ((compileTree "x^2/(\\d x)" ⟨.block, true, "\t", 4⟩).rootMarkup .block).tallies := by
  have quiet : '<' ∉ "\t".toList := by decide
  exact ⟨quiet, (compile_complete_iff _ ⟨.block, true, "\t", 4⟩).2.2 fun _ => quiet⟩

theorem compile_differential_incomplete :
    ⟨"mfrac", 3⟩ ∈ census (compile "\\d/2" {}).toList ∧ ¬ Tally.Complete ⟨"mfrac", 3⟩ := by
  decide +kernel

end PlainMath
