import PlainMath.Tree.Weight

/-! Subscripts and exponents among the elements of a cluster. The elements are
gone through from the right, so that a chain of scripts nests to the right. When
a script sign comes up, the element behind it waits for its base, which is the
next element to the left. -/
namespace PlainMath.Layout

/-- Puts a superscript on a base. It takes the free place of a base that has a
subscript only. -/
def raise (base superscript : Tree) : Tree :=
  match base with
  | .scripted inner (some subscript) none => .scripted inner (some subscript) (some superscript)
  | base => .scripted base none (some superscript)

structure ScriptRule where
  sign : String
  /-- the script on the operand in front of the sign -/
  attach : (base script : Tree) → Tree
  /-- the script where no operand stands in front of the sign -/
  detached : (script : Tree) → List Tree

/-- The elements to the right, and the script that waits for its base. -/
structure Scan where
  waiting : Option Tree
  done : List Tree

namespace ScriptRule
variable (rule : ScriptRule)

/-- An element that is not a base: a script sign takes the element behind it. -/
def enter (element : Tree) (done : List Tree) : Scan :=
  if element.isOperator rule.sign then
    match done with
    | [] => ⟨none, [element]⟩
    | script :: done => ⟨some script, done⟩
  else
    ⟨none, element :: done⟩

def step (element : Tree) (scan : Scan) : Scan :=
  match scan.waiting with
  | none => rule.enter element scan.done
  | some script =>
    if element.isOperand then
      ⟨none, rule.attach element script :: scan.done⟩
    else
      rule.enter element (rule.detached script ++ scan.done)

/-- At the left end no base can follow any more. -/
def close (scan : Scan) : List Tree :=
  match scan.waiting with
  | none => scan.done
  | some script => rule.detached script ++ scan.done

def fold (elements : List Tree) : List Tree :=
  rule.close (elements.foldr rule.step ⟨none, []⟩)

end ScriptRule

/-- A subscript without an operand in front of it has a blank base. -/
def subscriptRule : ScriptRule where
  sign := Glyph.subscript
  attach base script := .scripted base (some script.unwrap) none
  detached script := [.scripted (.identifier "") (some script.unwrap) none]

/-- A superscript sign without an operand in front of it stays as it is. -/
def exponentRule : ScriptRule where
  sign := Glyph.superscript
  attach base script := raise base script.unwrap
  detached script := [.operator Glyph.superscript, script]

/-- A number straight after an identifier is its subscript. -/
def implicitSubscripts : List Tree → List Tree
  | .identifier symbol :: .number numeral :: rest =>
    .scripted (.identifier symbol) (some (.number numeral)) none :: implicitSubscripts rest
  | element :: rest => element :: implicitSubscripts rest
  | [] => []

def subscripts : Tree → Tree
  | .cluster elements => .cluster (implicitSubscripts (subscriptRule.fold elements))
  | tree => tree

def exponents : Tree → Tree
  | .cluster elements => .cluster (exponentRule.fold elements)
  | tree => tree

open PlainMath.Tree

theorem weight_raise_le (base superscript : Tree) :
    (raise base superscript).weight ≤ 1 + base.weight + superscript.weight := by
  unfold raise
  split <;> simp only [weight, optionWeight] <;> omega

structure ScriptRule.Light (rule : ScriptRule) : Prop where
  attach_le : ∀ base script, (rule.attach base script).weight ≤ 1 + base.weight + script.weight
  detached_le : ∀ script, listWeight (rule.detached script) ≤ 3 + script.weight

def Scan.weight (scan : Scan) : Nat :=
  (match scan.waiting with
    | none => 0
    | some script => 3 + script.weight) + listWeight scan.done

theorem weight_enter_le (rule : ScriptRule) (element : Tree) (done : List Tree) :
    (rule.enter element done).weight ≤ 1 + element.weight + listWeight done := by
  unfold ScriptRule.enter
  split
  · have := weight_pos element
    split <;> simp only [Scan.weight, listWeight] <;> omega
  · simp only [Scan.weight, listWeight]; omega

theorem weight_step_le {rule : ScriptRule} (light : rule.Light) (element : Tree) (scan : Scan) :
    (rule.step element scan).weight ≤ 1 + element.weight + scan.weight := by
  unfold ScriptRule.step
  split
  · rename_i idle
    have := weight_enter_le rule element scan.done
    simp only [Scan.weight, idle]
    simp only [Scan.weight] at this
    omega
  · rename_i script waiting
    split
    · have := light.attach_le element script
      simp only [Scan.weight, waiting, listWeight]
      omega
    · have entered := weight_enter_le rule element (rule.detached script ++ scan.done)
      have := light.detached_le script
      simp only [listWeight_append] at entered
      simp only [Scan.weight, waiting]
      simp only [Scan.weight] at entered
      omega

theorem weight_foldr_step_le {rule : ScriptRule} (light : rule.Light) (elements : List Tree) :
    (elements.foldr rule.step ⟨none, []⟩).weight ≤ listWeight elements := by
  induction elements with
  | nil => simp [Scan.weight, listWeight]
  | cons element elements ih =>
    have := weight_step_le light element (elements.foldr rule.step ⟨none, []⟩)
    simp only [List.foldr_cons, listWeight]
    omega

theorem listWeight_fold_le {rule : ScriptRule} (light : rule.Light) (elements : List Tree) :
    listWeight (rule.fold elements) ≤ listWeight elements := by
  have bound := weight_foldr_step_le light elements
  unfold ScriptRule.fold ScriptRule.close
  split
  · rename_i idle
    simp only [Scan.weight, idle] at bound
    omega
  · rename_i script waiting
    have := light.detached_le script
    simp only [Scan.weight, waiting] at bound
    simp only [listWeight_append]
    omega

theorem subscriptRule_light : subscriptRule.Light where
  attach_le base script := by
    have := weight_unwrap_le script
    simp only [subscriptRule, weight, optionWeight]
    omega
  detached_le script := by
    have := weight_unwrap_le script
    simp only [subscriptRule, weight, optionWeight, listWeight]
    omega

theorem exponentRule_light : exponentRule.Light where
  attach_le base script := by
    have := weight_unwrap_le script
    have := weight_raise_le base script.unwrap
    simp only [exponentRule]
    omega
  detached_le script := by
    simp only [exponentRule, weight, listWeight]
    omega

theorem listWeight_implicitSubscripts_le (elements : List Tree) :
    listWeight (implicitSubscripts elements) ≤ listWeight elements := by
  fun_induction implicitSubscripts elements with
  | case1 symbol numeral rest ih => simp only [listWeight, weight, optionWeight]; omega
  | case2 element rest _ ih => simp only [listWeight]; omega
  | case3 => simp

theorem weight_subscripts_le (tree : Tree) : (subscripts tree).weight ≤ tree.weight := by
  unfold subscripts
  split
  · rename_i elements
    have := listWeight_implicitSubscripts_le (subscriptRule.fold elements)
    have := listWeight_fold_le subscriptRule_light elements
    simp only [weight]
    omega
  · exact Nat.le_refl _

theorem weight_exponents_le (tree : Tree) : (exponents tree).weight ≤ tree.weight := by
  unfold exponents
  split
  · rename_i elements
    have := listWeight_fold_le exponentRule_light elements
    simp only [weight]
    omega
  · exact Nat.le_refl _

end PlainMath.Layout
