import PlainMath.Layout.Pass
import PlainMath.Proofs.Grammar.Steps

/-! Scripts by changes to the list of elements in place. An index goes down from the end of the
list. At a script sign the elements next to the index are taken out of the list, and the scripted
element is put in. Every index that is used lies within the list as it is then, and the outcome is
that of the recursion from the right, and of the fold. -/
namespace PlainMath.Layout
open PlainMath.Tree

def remove? (elements : List Tree) (index : Nat) : Option (Tree × List Tree) :=
  elements[index]?.map (·, elements.eraseIdx index)

def insert? (elements : List Tree) (index : Nat) (element : Tree) : Option (List Tree) :=
  if index ≤ elements.length then some (elements.insertIdx index element) else none

def before? : (index : Nat) → Option (Fin index)
  | 0 => none
  | index + 1 => some (Fin.last index)

/-- What is done at one index: the index below which the loop goes on, and the changed list. There
is no outcome if an index is out of range. -/
def Edit : Type := (index : Nat) → List Tree → Option (Fin (index + 1) × List Tree)

def Edit.descend (edit : Edit) (least index : Nat) (elements : List Tree) : Option (List Tree) :=
  match index with
  | 0 => some elements
  | index + 1 =>
    if least ≤ index then
      match edit index elements with
      | none => none
      | some (next, changed) => descend edit least next changed
    else
      some elements
termination_by index
decreasing_by exact next.isLt

def subscriptEdit : Edit := fun index elements => do
  let sign ← elements[index]?
  if !sign.isOperator Glyph.subscript || elements.length ≤ index + 1 then
    return (Fin.last index, elements)
  let (script, elements) ← remove? elements (index + 1)
  let based ← if index = 0 then some false else
    (before? index).bind fun before => elements[before.val]?.map isOperand
  let (_, elements) ← remove? elements index
  if based then
    let before ← before? index
    let (base, elements) ← remove? elements before
    let elements ← insert? elements before (.scripted base (some script.unwrap) none)
    return (before.castSucc, elements)
  else
    let elements ← insert? elements index (.scripted (.identifier "") (some script.unwrap) none)
    return (Fin.last index, elements)

def exponentEdit : Edit := fun index elements => do
  let sign ← elements[index]?
  if !sign.isOperator Glyph.superscript || elements.length ≤ index + 1 then
    return (Fin.last index, elements)
  let before ← before? index
  let base ← elements[before.val]?
  if !base.isOperand then
    return (Fin.last index, elements)
  let (script, elements) ← remove? elements (index + 1)
  let (_, elements) ← remove? elements index
  let (base, elements) ← remove? elements before
  let elements ← insert? elements before (raise base script.unwrap)
  return (before.castSucc, elements)

def subscriptsInPlace (elements : List Tree) : Option (List Tree) :=
  subscriptEdit.descend 0 elements.length elements

def exponentsInPlace (elements : List Tree) : Option (List Tree) :=
  exponentEdit.descend 1 elements.length elements

/-- The elements to the left, the nearest first, and those to the right, which have been rewritten.
A sign takes the first element to the right, and the nearest to the left if it is an operand. -/
def subscriptsFromRight : (left done : List Tree) → List Tree
  | .operator "_" :: .operator symbol :: left, script :: done =>
    subscriptsFromRight (.operator symbol :: left)
      (.scripted (.identifier "") (some script.unwrap) none :: done)
  | .operator "_" :: base :: left, script :: done =>
    subscriptsFromRight left (.scripted base (some script.unwrap) none :: done)
  | [.operator "_"], script :: done => .scripted (.identifier "") (some script.unwrap) none :: done
  | element :: left, done => subscriptsFromRight left (element :: done)
  | [], done => done

/-- A base that has a subscript only keeps it beside the superscript. -/
def exponentsFromRight : (left done : List Tree) → List Tree
  | .operator "^" :: .operator symbol :: left, done =>
    exponentsFromRight (.operator symbol :: left) (.operator "^" :: done)
  | .operator "^" :: .scripted inner (some subscript) none :: left, script :: done =>
    exponentsFromRight left (.scripted inner (some subscript) (some script.unwrap) :: done)
  | .operator "^" :: base :: left, script :: done =>
    exponentsFromRight left (.scripted base none (some script.unwrap) :: done)
  | element :: left, done => exponentsFromRight left (element :: done)
  | [], done => done

/-- The recursion for any rule, with which the fold and the loops are compared. -/
def ScriptRule.fromRight (rule : ScriptRule) : (left done : List Tree) → List Tree
  | [], done => done
  | element :: left, [] => rule.fromRight left [element]
  | element :: left, script :: done =>
    if element.isOperator rule.sign then
      match left with
      | [] => rule.detached script ++ done
      | base :: further =>
        if base.isOperand then
          rule.fromRight further (rule.attach base script :: done)
        else
          rule.fromRight (base :: further) (rule.detached script ++ done)
    else
      rule.fromRight left (element :: script :: done)

theorem isOperand_of_ne {tree : Tree} (other : ∀ symbol, tree = .operator symbol → False) :
    tree.isOperand = true := by
  cases tree with
  | operator symbol => exact (other symbol rfl).elim
  | _ => rfl

theorem raise_of_ne {base : Tree}
    (full : ∀ inner subscript, base = .scripted inner (some subscript) none → False)
    (superscript : Tree) : raise base superscript = .scripted base none (some superscript) := by
  unfold raise
  split
  · exact (full _ _ rfl).elim
  · rfl

theorem fromRight_other {rule : ScriptRule} {element : Tree} {done : List Tree} (left : List Tree)
    (other : done ≠ [] → element.isOperator rule.sign = false) :
    rule.fromRight (element :: left) done = rule.fromRight left (element :: done) := by
  cases done with
  | nil => rfl
  | cons script done =>
    have plain := other (List.cons_ne_nil script done)
    cases left <;> simp [ScriptRule.fromRight, plain]

theorem fromRight_based (rule : ScriptRule) {base : Tree} (operand : base.isOperand = true)
    (left done : List Tree) (script : Tree) :
    rule.fromRight (.operator rule.sign :: base :: left) (script :: done) =
      rule.fromRight left (rule.attach base script :: done) := by
  simp [ScriptRule.fromRight, isOperator, operand]

theorem fromRight_subscriptRule (left done : List Tree) :
    subscriptRule.fromRight left done = subscriptsFromRight left done := by
  fun_induction subscriptsFromRight left done with
  | case1 symbol left script done ih =>
    rw [← ih]
    rfl
  | case2 base left script done operand ih =>
    rw [← ih]
    exact fromRight_based subscriptRule (isOperand_of_ne operand) left done script
  | case3 script done => rfl
  | case4 element left done _ based blank ih =>
    rw [← ih]
    refine fromRight_other left fun more => Bool.eq_false_iff.mpr fun sign => ?_
    obtain ⟨script, done, rfl⟩ := List.exists_cons_of_ne_nil more
    have sign := eq_operator_of_isOperator sign
    cases left with
    | nil => exact blank script done rfl sign rfl
    | cons base left => exact based base left script done rfl sign rfl
  | case5 done => cases done <;> rfl

theorem fromRight_exponentRule (left done : List Tree) :
    exponentRule.fromRight left done = exponentsFromRight left done := by
  fun_induction exponentsFromRight left done with
  | case1 symbol left done ih =>
    rw [← ih]
    cases done <;> rfl
  | case2 inner subscript left script done ih =>
    rw [← ih]
    rfl
  | case3 base left script done operand full ih =>
    rw [← ih, ← raise_of_ne full]
    exact fromRight_based exponentRule (isOperand_of_ne operand) left done script
  | case4 element left done _ _ based ih =>
    rw [← ih]
    cases left with
    | nil =>
      by_cases sign : element.isOperator exponentRule.sign = true
      · rw [eq_operator_of_isOperator sign]
        cases done <;> rfl
      · exact fromRight_other [] fun _ => Bool.eq_false_iff.mpr sign
    | cons base left =>
      refine fromRight_other (base :: left) fun more => Bool.eq_false_iff.mpr fun sign => ?_
      obtain ⟨script, done, rfl⟩ := List.exists_cons_of_ne_nil more
      exact based base left script done rfl (eq_operator_of_isOperator sign) rfl
  | case5 done => cases done <;> rfl
theorem close_foldl_step (rule : ScriptRule) (left done : List Tree) :
    rule.close (left.foldl (fun scan element => rule.step element scan) ⟨none, done⟩) =
      rule.fromRight left done := by
  fun_induction ScriptRule.fromRight rule left done with
  | case1 done => rfl
  | case2 element left ih =>
    rw [← ih, List.foldl_cons]
    simp only [ScriptRule.step, ScriptRule.enter, ite_self]
  | case3 element script done sign =>
    simp [ScriptRule.step, ScriptRule.enter, sign, ScriptRule.close]
  | case4 element script done sign base further operand ih =>
    rw [← ih, List.foldl_cons, List.foldl_cons]
    simp [ScriptRule.step, ScriptRule.enter, sign, operand]
  | case5 element script done sign base further operator ih =>
    -- the script that waits is given up, and the operator enters in front of it
    rw [← ih, List.foldl_cons, List.foldl_cons, List.foldl_cons]
    simp [ScriptRule.step, ScriptRule.enter, sign, operator]
  | case6 element left script done other ih =>
    rw [← ih, List.foldl_cons]
    simp [ScriptRule.step, ScriptRule.enter, other]

theorem fold_eq_fromRight (rule : ScriptRule) (elements : List Tree) :
    rule.fold elements = rule.fromRight elements.reverse [] := by
  rw [← close_foldl_step, List.foldl_reverse]
  rfl

theorem remove?_reverse_append (left done : List Tree) (element : Tree) :
    remove? (left.reverse ++ element :: done) left.length =
      some (element, left.reverse ++ done) := by
  simp [remove?, List.eraseIdx_append_of_length_le]

theorem insert?_reverse_append (left done : List Tree) (element : Tree) :
    insert? (left.reverse ++ done) left.length element =
      some (left.reverse ++ element :: done) := by
  have inserted (front : List Tree) :
      (front ++ done).insertIdx front.length element = front ++ element :: done := by
    induction front with
    | nil => rfl
    | cons first front ih => simp [ih]
  have here := inserted left.reverse
  rw [List.length_reverse] at here
  simp [insert?, here]

/-- The script is taken out first, then the sign, so that the index of the base stays the same. -/
theorem remove?_script_sign (left done : List Tree) (base sign script : Tree) :
    remove? (left.reverse ++ base :: sign :: script :: done) (left.length + 1 + 1) =
        some (script, left.reverse ++ base :: sign :: done) ∧
      remove? (left.reverse ++ base :: sign :: done) (left.length + 1) =
        some (sign, left.reverse ++ base :: done) :=
  ⟨by simpa using remove?_reverse_append (sign :: base :: left) done script,
    by simpa using remove?_reverse_append (base :: left) done sign⟩

section
variable {element base : Tree} (left done : List Tree) (script : Tree)

theorem subscriptEdit_other (other : element.isOperator Glyph.subscript = false ∨ done = []) :
    subscriptEdit left.length (left.reverse ++ element :: done) =
      some (Fin.last _, left.reverse ++ element :: done) := by
  rcases other with other | rfl <;> simp [subscriptEdit, *]

theorem subscriptEdit_based (sign : element.isOperator Glyph.subscript = true)
    (operand : base.isOperand = true) :
    subscriptEdit (base :: left).length ((base :: left).reverse ++ element :: script :: done) =
      some ((Fin.last _).castSucc, left.reverse ++
        .scripted base (some script.unwrap) none :: done) := by
  have room : ¬left.length + (done.length + 1 + 1 + 1) ≤ left.length + 1 + 1 := by omega
  obtain ⟨first, second⟩ := remove?_script_sign left done base element script
  simp [subscriptEdit, room, first, second, remove?_reverse_append, insert?_reverse_append, sign,
    operand, before?]

theorem subscriptEdit_blank (sign : element.isOperator Glyph.subscript = true)
    (unbased : ∀ base ∈ left.head?, base.isOperand = false) :
    subscriptEdit left.length (left.reverse ++ element :: script :: done) =
      some (Fin.last _, left.reverse ++
        .scripted (.identifier "") (some script.unwrap) none :: done) := by
  cases left with
  | nil => simp [subscriptEdit, remove?, insert?, sign]
  | cons base left =>
    have room : ¬left.length + (done.length + 1 + 1 + 1) ≤ left.length + 1 + 1 := by omega
    obtain ⟨first, second⟩ := remove?_script_sign left done base element script
    have third (made : Tree) : insert? (left.reverse ++ base :: done) (left.length + 1) made =
        some (left.reverse ++ base :: made :: done) := by
      simpa using insert?_reverse_append (base :: left) done made
    simp [subscriptEdit, room, first, second, third, sign, unbased base rfl, before?]

theorem exponentEdit_other (other : element.isOperator Glyph.superscript = false ∨ done = []) :
    exponentEdit left.length (left.reverse ++ element :: done) =
      some (Fin.last _, left.reverse ++ element :: done) := by
  rcases other with other | rfl <;> simp [exponentEdit, *]

theorem exponentEdit_unbased (element : Tree) (operator : base.isOperand = false) :
    exponentEdit (base :: left).length ((base :: left).reverse ++ element :: done) =
      some (Fin.last _, (base :: left).reverse ++ element :: done) := by
  simp [exponentEdit, operator, before?]

theorem exponentEdit_based (sign : element.isOperator Glyph.superscript = true)
    (operand : base.isOperand = true) :
    exponentEdit (base :: left).length ((base :: left).reverse ++ element :: script :: done) =
      some ((Fin.last _).castSucc, left.reverse ++ raise base script.unwrap :: done) := by
  have room : ¬left.length + (done.length + 1 + 1 + 1) ≤ left.length + 1 + 1 := by omega
  obtain ⟨first, second⟩ := remove?_script_sign left done base element script
  simp [exponentEdit, room, first, second, remove?_reverse_append, insert?_reverse_append, sign,
    operand, before?]

end

theorem descend_cons {edit : Edit} {least : Nat} {left done changed : List Tree} {element : Tree}
    {next : Fin (left.length + 1)} (above : least ≤ left.length)
    (edited : edit left.length (left.reverse ++ element :: done) = some (next, changed)) :
    edit.descend least (element :: left).length ((element :: left).reverse ++ done) =
      edit.descend least next changed := by
  rw [List.length_cons, Edit.descend, if_pos above, List.reverse_cons, List.append_assoc,
    List.singleton_append, edited]

theorem descend_subscriptEdit (left done : List Tree) :
    subscriptEdit.descend 0 left.length (left.reverse ++ done) =
      some (subscriptRule.fromRight left done) := by
  fun_induction ScriptRule.fromRight subscriptRule left done with
  | case1 done => simp [Edit.descend]
  | case2 element left ih =>
    rw [← ih, descend_cons (Nat.zero_le _) (subscriptEdit_other left [] (.inr rfl))]
    rfl
  | case3 element script done sign =>
    rw [descend_cons (Nat.zero_le _) (subscriptEdit_blank [] done script sign (by simp))]
    simp [Edit.descend, subscriptRule]
  | case4 element script done sign base further operand ih =>
    have edited := subscriptEdit_based further done script sign operand
    rw [← ih, descend_cons (Nat.zero_le _) edited]
    rfl
  | case5 element script done sign base further operator ih =>
    have edited := subscriptEdit_blank (base :: further) done script sign (by simpa using operator)
    rw [← ih, descend_cons (Nat.zero_le _) edited]
    rfl
  | case6 element left script done other ih =>
    have other : element.isOperator Glyph.subscript = false := Bool.eq_false_iff.mpr other
    rw [← ih, descend_cons (Nat.zero_le _) (subscriptEdit_other left (script :: done) (.inl other))]
    rfl

theorem descend_exponentEdit (left done : List Tree) :
    exponentEdit.descend 1 left.length (left.reverse ++ done) =
      some (exponentRule.fromRight left done) := by
  -- the loop ends in front of the first element, which is left alone in any case
  have passed {left done : List Tree} {element : Tree}
      (edited : left ≠ [] → exponentEdit left.length (left.reverse ++ element :: done) =
        some (Fin.last _, left.reverse ++ element :: done)) :
      exponentEdit.descend 1 (element :: left).length ((element :: left).reverse ++ done) =
        exponentEdit.descend 1 left.length (left.reverse ++ element :: done) := by
    cases left with
    | nil => simp [Edit.descend]
    | cons base left => exact descend_cons (by simp) (edited (by simp))
  fun_induction ScriptRule.fromRight exponentRule left done with
  | case1 done => simp [Edit.descend]
  | case2 element left ih => rw [← ih, passed fun _ => exponentEdit_other left [] (.inr rfl)]
  | case3 element script done sign =>
    rw [eq_operator_of_isOperator sign, passed (absurd rfl)]
    simp [Edit.descend, exponentRule]
  | case4 element script done sign base further operand ih =>
    have edited := exponentEdit_based further done script sign operand
    rw [← ih, descend_cons (by simp) edited]
    rfl
  | case5 element script done sign base further operator ih =>
    have operator : base.isOperand = false := Bool.eq_false_iff.mpr operator
    have edited := exponentEdit_unbased further (script :: done) element operator
    rw [← ih, passed fun _ => edited, eq_operator_of_isOperator sign]
    rfl
  | case6 element left script done other ih =>
    have other : element.isOperator Glyph.superscript = false := Bool.eq_false_iff.mpr other
    rw [← ih, passed fun _ => exponentEdit_other left (script :: done) (.inl other)]

theorem subscriptsInPlace_eq (elements : List Tree) :
    subscriptsInPlace elements = some (subscriptRule.fold elements) := by
  rw [fold_eq_fromRight]
  simpa [subscriptsInPlace] using descend_subscriptEdit elements.reverse []

theorem exponentsInPlace_eq (elements : List Tree) :
    exponentsInPlace elements = some (exponentRule.fold elements) := by
  rw [fold_eq_fromRight]
  simpa [exponentsInPlace] using descend_exponentEdit elements.reverse []

def isBare : Tree → Bool
  | .operator _ | .bracketed .. | .scripted .. => false
  | _ => true

def chain (sign : String) : Tree → List Tree → List Tree
  | first, [] => [first]
  | first, next :: rest => first :: .operator sign :: chain sign next rest

def nest (wrap : Tree → Tree → Tree) : Tree → List Tree → Tree
  | first, [] => first
  | first, next :: rest => wrap first (nest wrap next rest)

theorem unwrap_of_isBare {tree : Tree} (bare : isBare tree = true) : tree.unwrap = tree := by
  cases tree with
  | bracketed => cases bare
  | _ => rfl

theorem isOperand_of_isBare {tree : Tree} (bare : isBare tree = true) : tree.isOperand = true := by
  cases tree with
  | operator => cases bare
  | _ => rfl

section
variable {rule : ScriptRule} {wrap : Tree → Tree → Tree} {first : Tree} {rest : List Tree}
  (kept : ∀ base script, (wrap base script).unwrap = wrap base script)
include kept

theorem unwrap_nest (rest : List Tree) (bare : isBare first = true) :
    (nest wrap first rest).unwrap = nest wrap first rest := by
  cases rest with
  | nil => exact unwrap_of_isBare bare
  | cons next rest => exact kept _ _

theorem fold_chain (attach : ∀ base script, isBare base = true → script.unwrap = script →
      rule.attach base script = wrap base script)
    (bare : ∀ operand ∈ first :: rest, isBare operand = true) :
    rule.fold (chain rule.sign first rest) = [nest wrap first rest] := by
  suffices scanned : (chain rule.sign first rest).foldr rule.step ⟨none, []⟩ =
      ⟨none, [nest wrap first rest]⟩ by
    rw [ScriptRule.fold, scanned]
    rfl
  induction rest generalizing first with
  | nil => simp [chain, nest, ScriptRule.step, ScriptRule.enter]
  | cons next rest ih =>
    obtain ⟨here, behind⟩ := List.forall_mem_cons.mp bare
    have whole := unwrap_nest kept rest (behind next List.mem_cons_self)
    have sign : rule.step (.operator rule.sign) ⟨none, [nest wrap next rest]⟩ =
        ⟨some (nest wrap next rest), []⟩ := by
      simp [ScriptRule.step, ScriptRule.enter, isOperator]
    rw [chain, List.foldr_cons, List.foldr_cons, ih behind, sign, nest, ← attach first _ here whole]
    simp [ScriptRule.step, isOperand_of_isBare here]

end

theorem subscripts_chain {first : Tree} {rest : List Tree}
    (bare : ∀ operand ∈ first :: rest, isBare operand = true) :
    subscripts (.cluster (chain Glyph.subscript first rest)) =
      .cluster [nest (fun base script => .scripted base (some script) none) first rest] := by
  have folded : subscriptRule.fold (chain Glyph.subscript first rest) =
      [nest (fun base script => .scripted base (some script) none) first rest] :=
    fold_chain (fun _ _ => rfl) (fun base script _ same => by simp [subscriptRule, same]) bare
  have single (only : Tree) : implicitSubscripts [only] = [only] := by cases only <;> rfl
  rw [subscripts, folded, single]

theorem exponents_chain {first : Tree} {rest : List Tree}
    (bare : ∀ operand ∈ first :: rest, isBare operand = true) :
    exponents (.cluster (chain Glyph.superscript first rest)) =
      .cluster [nest (fun base script => .scripted base none (some script)) first rest] := by
  have raised {base : Tree} (bare : isBare base = true) (script : Tree) :
      raise base script = .scripted base none (some script) := by
    refine raise_of_ne (fun _ _ same => ?_) script
    rw [same] at bare
    cases bare
  have folded : exponentRule.fold (chain Glyph.superscript first rest) =
      [nest (fun base script => .scripted base none (some script)) first rest] :=
    fold_chain (fun _ _ => rfl)
      (fun base script here same => by simp [exponentRule, raised here, same]) bare
  rw [exponents, folded]

/-- At every cluster, the visits for scripts are the recursions from the right, the one for
subscripts followed by the subscripts without a sign. The loops always have an outcome, which is the
same. Chains of bare operands nest to the right. -/
theorem visit_scripts_from_right (elements : List Tree) :
    (subscriptRule.fold elements = subscriptsFromRight elements.reverse [] ∧
      subscriptsInPlace elements = some (subscriptsFromRight elements.reverse []) ∧
      Pass.subscripts.visit (.cluster elements) =
        .cluster (implicitSubscripts (subscriptsFromRight elements.reverse []))) ∧
    (exponentsInPlace elements = some (exponentsFromRight elements.reverse []) ∧
      Pass.exponents.visit (.cluster elements) =
        .cluster (exponentsFromRight elements.reverse [])) ∧
    ∀ first rest, (∀ operand ∈ first :: rest, isBare operand = true) →
      Pass.subscripts.visit (.cluster (chain Glyph.subscript first rest)) =
        .cluster [nest (fun base script => .scripted base (some script) none) first rest] ∧
      Pass.exponents.visit (.cluster (chain Glyph.superscript first rest)) =
        .cluster [nest (fun base script => .scripted base none (some script)) first rest] := by
  have folded : subscriptRule.fold elements = subscriptsFromRight elements.reverse [] := by
    rw [fold_eq_fromRight, fromRight_subscriptRule]
  have raised : exponentRule.fold elements = exponentsFromRight elements.reverse [] := by
    rw [fold_eq_fromRight, fromRight_exponentRule]
  refine ⟨⟨folded, ?_, ?_⟩, ⟨?_, ?_⟩,
    fun first rest bare => ⟨subscripts_chain bare, exponents_chain bare⟩⟩
  · rw [subscriptsInPlace_eq, folded]
  · rw [← folded]
    rfl
  · rw [exponentsInPlace_eq, raised]
  · rw [← raised]
    rfl

theorem visit_scripts_chain_and_pair :
    (∀ operand ∈ [Tree.identifier "a", .identifier "b", .number "3"], isBare operand = true) ∧
      exponentsInPlace (chain "^" (.identifier "a") [.identifier "b", .number "3"]) =
        some [.scripted (.identifier "a") none
          (some (.scripted (.identifier "b") none (some (.number "3"))))] ∧
      Pass.subscripts.visit (.cluster [.identifier "x", .operator "_", .number "1",
          .operator "^", .number "2"]) =
        .cluster [.scripted (.identifier "x") (some (.number "1")) none, .operator "^",
          .number "2"] ∧
      Pass.exponents.visit (.cluster [.scripted (.identifier "x") (some (.number "1")) none,
          .operator "^", .number "2"]) =
        .cluster [.scripted (.identifier "x") (some (.number "1")) (some (.number "2"))] := by
  have bare : ∀ operand ∈ [Tree.identifier "a", .identifier "b", .number "3"],
      isBare operand = true := by simp [isBare]
  have all := visit_scripts_from_right
    (chain "^" (.identifier "a") [.identifier "b", .number "3"])
  have nested := all.2.1.2.symm.trans (all.2.2 _ _ bare).2
  exact ⟨bare, all.2.1.1.trans (congrArg some (Tree.cluster.inj nested)),
    (visit_scripts_from_right _).1.2.2.trans rfl, (visit_scripts_from_right _).2.1.2.trans rfl⟩

end PlainMath.Layout
