import PlainMath.Tree.Basic

/-! The weight of a tree: every node counts one, and every element of a row, a
cluster or a grid counts one more for its place. The parts of a tree are
lighter than the tree, which makes weight the measure for walks over trees. -/
namespace PlainMath.Tree

mutual

def weight : Tree → Nat
  | .grid rows => 1 + rowsWeight rows
  | .row elements => 1 + listWeight elements
  | .cluster elements => 1 + listWeight elements
  | .bracketed _ _ contents => 1 + optionWeight contents
  | .identifier _ => 1
  | .operator _ => 1
  | .text _ => 1
  | .number _ => 1
  | .fraction numerator denominator => 1 + numerator.weight + denominator.weight
  | .scripted base subscript superscript =>
      1 + base.weight + optionWeight subscript + optionWeight superscript
  | .root radicand index => 1 + radicand.weight + optionWeight index
  | .limits _ lower upper => 1 + lower.weight + optionWeight upper
  | .stackedLimits base lower upper => 1 + base.weight + lower.weight + optionWeight upper
  | .brace _ base comment => 1 + base.weight + comment.weight

def listWeight : List Tree → Nat
  | [] => 0
  | tree :: trees => 1 + tree.weight + listWeight trees

def rowsWeight : List (List Tree) → Nat
  | [] => 0
  | cells :: rows => listWeight cells + rowsWeight rows

def optionWeight : Option Tree → Nat
  | none => 0
  | some tree => tree.weight

end

theorem weight_pos (tree : Tree) : 0 < tree.weight := by
  cases tree <;> simp only [weight] <;> omega

@[simp] theorem listWeight_append (first second : List Tree) :
    listWeight (first ++ second) = listWeight first + listWeight second := by
  induction first with
  | nil => simp [listWeight]
  | cons tree trees ih => simp only [List.cons_append, listWeight, ih]; omega

@[simp] theorem listWeight_flatten (rows : List (List Tree)) :
    listWeight rows.flatten = rowsWeight rows := by
  induction rows with
  | nil => rfl
  | cons cells rows ih => simp [rowsWeight, ih]

theorem weight_lt_listWeight {tree : Tree} {trees : List Tree} (member : tree ∈ trees) :
    tree.weight < listWeight trees := by
  induction member with
  | head rest => simp only [listWeight]; omega
  | tail first _ ih => simp only [listWeight]; omega

theorem weight_le_optionWeight {tree : Tree} {option : Option Tree}
    (member : tree ∈ option.toList) : tree.weight ≤ optionWeight option := by
  cases option with
  | none => simp at member
  | some other =>
    simp only [Option.toList_some, List.mem_singleton] at member
    simp [optionWeight, member]

theorem weight_lt_of_mem_children {tree child : Tree} (member : child ∈ tree.children) :
    child.weight < tree.weight := by
  cases tree with
  | grid rows =>
    have bound : child.weight < listWeight rows.flatten := weight_lt_listWeight member
    simp only [listWeight_flatten] at bound
    simp only [weight]; omega
  | row elements =>
    have bound : child.weight < listWeight elements := weight_lt_listWeight member
    simp only [weight]; omega
  | cluster elements =>
    have bound : child.weight < listWeight elements := weight_lt_listWeight member
    simp only [weight]; omega
  | bracketed left right contents =>
    have bound := weight_le_optionWeight member; simp only [weight]; omega
  | identifier symbol => simp [children] at member
  | operator symbol => simp [children] at member
  | text content => simp [children] at member
  | number numeral => simp [children] at member
  | fraction numerator denominator =>
    simp only [children, List.mem_cons, List.not_mem_nil, or_false] at member
    rcases member with rfl | rfl <;> simp only [weight] <;> omega
  | scripted base subscript superscript =>
    simp only [children, List.mem_cons, List.mem_append] at member
    rcases member with rfl | low | high
    · simp only [weight]; omega
    · have bound := weight_le_optionWeight low; simp only [weight]; omega
    · have bound := weight_le_optionWeight high; simp only [weight]; omega
  | root radicand index =>
    simp only [children, List.mem_cons] at member
    rcases member with rfl | low
    · simp only [weight]; omega
    · have bound := weight_le_optionWeight low; simp only [weight]; omega
  | limits glyph lower upper =>
    simp only [children, List.mem_cons] at member
    rcases member with rfl | high
    · simp only [weight]; omega
    · have bound := weight_le_optionWeight high; simp only [weight]; omega
  | stackedLimits base lower upper =>
    simp only [children, List.mem_cons] at member
    rcases member with rfl | rfl | high
    · simp only [weight]; omega
    · simp only [weight]; omega
    · have bound := weight_le_optionWeight high; simp only [weight]; omega
  | brace side base comment =>
    simp only [children, List.mem_cons, List.not_mem_nil, or_false] at member
    rcases member with rfl | rfl <;> simp only [weight] <;> omega

theorem induct {P : Tree → Prop}
    (step : ∀ tree, (∀ child ∈ tree.children, P child) → P tree) (tree : Tree) : P tree :=
  step tree fun child member =>
    have := weight_lt_of_mem_children member
    induct step child
termination_by tree.weight

theorem weight_unwrap_le (tree : Tree) : tree.unwrap.weight ≤ tree.weight := by
  unfold unwrap
  split
  · simp only [weight, optionWeight]; omega
  · exact Nat.le_refl _

theorem weight_collapse_le (tree : Tree) : tree.collapse.weight ≤ tree.weight := by
  unfold collapse
  split
  · simp only [weight, listWeight]; omega
  · simp only [weight, listWeight]; omega
  · exact Nat.le_refl _

end PlainMath.Tree
