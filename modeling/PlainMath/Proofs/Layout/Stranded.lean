import PlainMath.Proofs.Layout.Repeated
import PlainMath.Tree.Equality

/-! Exponents that the pass for exponents leaves behind. Its fold comes to each superscript sign
once, from the right to the left, and a sign behind an operator stays. When the operator is the
exponent of what stands in front of it, the sign gets an operand in front of it after all, but the
fold does not come back. No exponent is left behind in any other way. -/
namespace PlainMath.Layout
open PlainMath.Tree

inductive OpensExponent : List Tree → Prop
  | intro {base : Tree} (operand : base.isOperand = true) (script : Tree) (behind : List Tree) :
      OpensExponent (base :: .operator Glyph.superscript :: script :: behind)

/-- An operand with an operator for its exponent, another superscript sign and something more. -/
inductive OpensStrand : List Tree → Prop
  | intro {base mark : Tree} (operand : base.isOperand = true) (operator : mark.isOperand = false)
      (next : Tree) (behind : List Tree) :
      OpensStrand (base :: .operator Glyph.superscript :: mark ::
        .operator Glyph.superscript :: next :: behind)

def Somewhere (P : List Tree → Prop) (elements : List Tree) : Prop :=
  ∃ tail, tail <:+ elements ∧ P tail

def Nowhere (P : List Tree → Prop) (tree : Tree) : Prop :=
  ∀ elements, .cluster elements ∈ tree.nodes → ¬Somewhere P elements

section
variable {P : List Tree → Prop} {first : Tree} {rest : List Tree}

theorem somewhere_nil (never : ¬P []) : ¬Somewhere P [] := by
  rintro ⟨tail, ends, here⟩
  rw [List.suffix_nil] at ends
  exact never (ends ▸ here)

theorem somewhere_cons : Somewhere P (first :: rest) ↔ P (first :: rest) ∨ Somewhere P rest := by
  simp [Somewhere, List.suffix_cons_iff, or_and_right, exists_or]

theorem opensExponent_cons : OpensExponent (first :: rest) ↔ first.isOperand = true ∧
    ∃ script behind, rest = .operator Glyph.superscript :: script :: behind := by
  constructor
  · rintro ⟨operand, script, behind⟩
    exact ⟨operand, script, behind, rfl⟩
  · rintro ⟨operand, script, behind, rfl⟩
    exact .intro operand script behind

theorem not_opensExponent (operator : first.isOperand = false) :
    ¬OpensExponent (first :: rest) := by
  simp [opensExponent_cons, operator]

theorem not_opensStrand (operator : first.isOperand = false) : ¬OpensStrand (first :: rest) := by
  rintro ⟨operand, _, _, _⟩
  simp [operator] at operand

end

theorem fold_exponent {base : Tree} {behind : List Tree} (operand : base.isOperand = true)
    {script : Tree} {done : List Tree} (folded : exponentRule.fold behind = script :: done) :
    exponentRule.fold (base :: .operator Glyph.superscript :: behind) =
      raise base script.unwrap :: done := by
  have waits : exponentRule.scan (.operator Glyph.superscript :: behind) = ⟨some script, done⟩ := by
    rcases exponentRule.scan_cons (.operator Glyph.superscript) behind with
      ⟨_, _, _, operand, _⟩ | entered
    · cases operand
    · rw [entered, folded]
      rfl
  change exponentRule.close (exponentRule.step base
    (exponentRule.scan (.operator Glyph.superscript :: behind))) = _
  rw [waits]
  simp [ScriptRule.step, operand, ScriptRule.close, exponentRule]

theorem fold_kept {first : Tree} {rest : List Tree} (other : ¬OpensExponent (first :: rest)) :
    exponentRule.fold (first :: rest) = first :: exponentRule.fold rest := by
  have folded := exponentRule.folded_cons first rest
  generalize exponentRule.fold (first :: rest) = outcome at folded
  cases folded with
  | last sign empty => rw [empty]
  | detached sign folded =>
    rw [folded, eq_operator_of_isOperator sign]
    rfl
  | @attached sign behind script done operand here found folded =>
    cases behind with
    | nil => cases folded
    | cons next behind =>
      rw [here, eq_operator_of_isOperator found] at other
      exact absurd (.intro operand next behind) other
  | kept => rfl

theorem fold_operator {operator : Tree} (kind : operator.isOperand = false) (rest : List Tree) :
    exponentRule.fold (operator :: rest) = operator :: exponentRule.fold rest :=
  fold_kept (not_opensExponent kind)

theorem fold_cons_eq_cons (first : Tree) (rest : List Tree) :
    ∃ head done, exponentRule.fold (first :: rest) = head :: done :=
  List.exists_cons_of_ne_nil
    (fold_ne_nil (exponentRule_keeps filled_foldable) (List.cons_ne_nil first rest))

theorem eq_cons_of_fold {operator : Tree} (kind : operator.isOperand = false)
    {elements done : List Tree} (folded : exponentRule.fold elements = operator :: done) :
    ∃ rest, elements = operator :: rest ∧ exponentRule.fold rest = done := by
  cases elements with
  | nil => cases folded
  | cons first rest =>
    by_cases opens : OpensExponent (first :: rest)
    · obtain ⟨operand, script, behind⟩ := opens
      obtain ⟨head, more, inner⟩ := fold_cons_eq_cons script behind
      rw [fold_exponent operand inner] at folded
      cases folded
      simp [isOperand_raise] at kind
    · rw [fold_kept opens] at folded
      cases folded
      exact ⟨rest, rfl, rfl⟩

theorem fold_eq_sign_cons_iff {elements : List Tree} :
    (∃ script behind, exponentRule.fold elements =
      .operator Glyph.superscript :: script :: behind) ↔
      ∃ script behind, elements = .operator Glyph.superscript :: script :: behind := by
  constructor
  · rintro ⟨script, behind, folded⟩
    obtain ⟨rest, rfl, inner⟩ := eq_cons_of_fold rfl folded
    cases rest with
    | nil => cases inner
    | cons next rest => exact ⟨next, rest, rfl⟩
  · rintro ⟨script, behind, rfl⟩
    obtain ⟨head, done, inner⟩ := fold_cons_eq_cons script behind
    exact ⟨head, done, by rw [fold_operator rfl, inner]⟩

theorem opensExponent_raise_iff {base script : Tree} {behind done : List Tree}
    (operand : base.isOperand = true) (folded : exponentRule.fold behind = script :: done) :
    OpensExponent (raise base script.unwrap :: done) ↔
      OpensStrand (base :: .operator Glyph.superscript :: behind) ∨
        OpensExponent (script :: done) := by
  -- an exponent that is an operand has stood behind the sign itself
  rw [opensExponent_cons, and_iff_right (isOperand_raise _ _)]
  cases kind : script.isOperand with
  | true =>
    rw [opensExponent_cons, and_iff_right kind, iff_or_self]
    rintro ⟨_, operator, _, _⟩
    rw [fold_operator operator] at folded
    cases folded
    simp [kind] at operator
  | false =>
    obtain ⟨rest, rfl, rfl⟩ := eq_cons_of_fold kind folded
    rw [fold_eq_sign_cons_iff, or_iff_left (not_opensExponent kind)]
    constructor
    · rintro ⟨next, more, rfl⟩
      exact .intro operand kind next more
    · rintro ⟨_, _, next, more⟩
      exact ⟨next, more, rfl⟩

theorem somewhere_fold_iff (elements : List Tree) :
    Somewhere OpensExponent (exponentRule.fold elements) ↔ Somewhere OpensStrand elements := by
  -- an operand in front of a sign looks two elements ahead
  suffices both : (Somewhere OpensExponent (exponentRule.fold elements) ↔
      Somewhere OpensStrand elements) ∧
      (Somewhere OpensExponent (exponentRule.fold elements.tail) ↔
        Somewhere OpensStrand elements.tail) from both.1
  induction elements with
  | nil =>
    have ended : Somewhere OpensExponent [] ↔ Somewhere OpensStrand [] :=
      iff_of_false (somewhere_nil (by rintro ⟨⟩)) (somewhere_nil (by rintro ⟨⟩))
    exact ⟨ended, ended⟩
  | cons first rest ih =>
    refine ⟨?_, ih.1⟩
    by_cases opens : OpensExponent (first :: rest)
    · obtain ⟨operand, script, behind⟩ := opens
      obtain ⟨head, done, folded⟩ := fold_cons_eq_cons script behind
      have inner := ih.2
      rw [List.tail_cons, folded, somewhere_cons] at inner
      have sign : Somewhere OpensStrand (.operator Glyph.superscript :: script :: behind) ↔
          Somewhere OpensStrand (script :: behind) :=
        somewhere_cons.trans (or_iff_right (not_opensStrand rfl))
      rw [fold_exponent operand folded, somewhere_cons, opensExponent_raise_iff operand folded,
        or_assoc, inner, ← sign, ← somewhere_cons]
    · have unstranded : ¬OpensStrand (first :: rest) := by
        rintro ⟨operand, _, _, _⟩
        exact opens (.intro operand _ _)
      have plain : ¬OpensExponent (first :: exponentRule.fold rest) := by
        rwa [opensExponent_cons, fold_eq_sign_cons_iff, ← opensExponent_cons]
      rw [fold_kept opens, somewhere_cons, somewhere_cons, or_iff_right plain,
        or_iff_right unstranded, ih.1]

section
variable {P : List Tree → Prop} {tree : Tree}

theorem nowhere_iff : Nowhere P tree ↔
    (∀ elements, tree = .cluster elements → ¬Somewhere P elements) ∧
      ∀ child ∈ tree.children, Nowhere P child := by
  simp only [Nowhere, nodes_eq tree, List.mem_cons, List.mem_flatMap]
  grind

theorem nowhere_inner (inner : tree.elements? = none) :
    Nowhere P tree ↔ ∀ child ∈ tree.children, Nowhere P child := by
  rw [nowhere_iff, and_iff_right]
  rintro elements rfl
  cases inner

theorem nowhere_unwrap : Nowhere P tree.unwrap ↔ Nowhere P tree := by
  unfold unwrap
  split
  · rename_i left right contents
    have bracket : Nowhere P (.bracketed left right (some contents)) ↔ _ := nowhere_inner rfl
    simp [bracket, children]
  · rfl

theorem nowhere_raise (base script : Tree) :
    Nowhere P (raise base script) ↔ Nowhere P base ∧ Nowhere P script := by
  rw [nowhere_inner (inner_of_isMade (isMade_raise base script)).1]
  unfold raise
  split
  · rename_i inner subscript
    have scripted : Nowhere P (.scripted inner (some subscript) none) ↔ _ := nowhere_inner rfl
    simp [scripted, children, and_assoc]
  · simp [children]

theorem nowhere_operator (symbol : String) : Nowhere P (.operator symbol) :=
  (nowhere_inner rfl).mpr (by simp [children])

theorem Folds.forall_nowhere {elements folded : List Tree}
    (folds : Folds .exponents elements folded) :
    (∀ element ∈ folded, Nowhere P element) ↔ ∀ element ∈ elements, Nowhere P element := by
  induction folds with
  | refl => rfl
  | tail _ replaces ih =>
    rw [← ih]
    cases replaces with
    | make front behind makes =>
      cases makes with
      | exponent script operand =>
        simp [nowhere_raise, nowhere_unwrap, nowhere_operator, or_imp, forall_and, and_assoc]

end

theorem collapse_exponents {elements : List Tree} (firm : Firm (.cluster elements)) :
    (Pass.exponents.visit (.cluster elements)).collapse = .cluster (exponentRule.fold elements) ∨
      ∃ made, exponentRule.fold elements = [made] ∧ isMade made = true ∧
        (Pass.exponents.visit (.cluster elements)).collapse = made := by
  have folds : Folds .exponents elements (exponentRule.fold elements) :=
    folds_fold .exponent (fun _ _ => .refl _) elements
  rcases collapse_cases (Pass.exponents.visit (.cluster elements)) with same | ⟨only, found, single⟩
  · exact .inl same
  · have alone : exponentRule.fold elements = [only] := Option.some.inj found
    rw [alone] at folds
    rcases folds.single with whole | ⟨block, makes⟩
    · exact absurd (congrArg List.length whole) (firm.several rfl)
    · exact .inr ⟨only, alone, makes.isMade, single⟩

theorem visit_collapse_of_not_cluster {tree : Tree} (firm : Firm tree)
    (other : ∀ elements, tree ≠ .cluster elements) :
    (Pass.exponents.visit tree).collapse = tree := by
  have same : Pass.exponents.visit tree = tree := by
    cases tree with
    | cluster elements => exact absurd rfl (other elements)
    | _ => rfl
  rw [same, firm.collapse_eq]

theorem apply_eq_operator_iff {tree : Tree} (firm : Firm tree) {symbol : String} :
    Pass.exponents.apply tree = .operator symbol ↔ tree = .operator symbol := by
  have kind : (Pass.exponents.apply tree).isOperand = tree.isOperand :=
    isOperand_apply (by decide) firm
  cases tree with
  | operator own =>
    rw [apply_operator]
    rfl
  | _ =>
    refine iff_of_false (fun same => ?_) (by simp)
    rw [same] at kind
    cases kind

theorem map_apply_eq_sign_cons_iff {elements : List Tree}
    (firm : ∀ element ∈ elements, Firm element) :
    (∃ script behind, elements.map Pass.exponents.apply =
      .operator Glyph.superscript :: script :: behind) ↔
      ∃ script behind, elements = .operator Glyph.superscript :: script :: behind := by
  constructor
  · rintro ⟨_, _, mapped⟩
    obtain ⟨sign, rest, rfl, found, mapped⟩ := List.map_eq_cons_iff.mp mapped
    obtain ⟨script, behind, rfl, _, _⟩ := List.map_eq_cons_iff.mp mapped
    rw [apply_eq_operator_iff (firm sign List.mem_cons_self)] at found
    exact ⟨script, behind, by rw [found]⟩
  · rintro ⟨script, behind, rfl⟩
    exact ⟨_, _, by rw [List.map_cons, List.map_cons, apply_operator]; rfl⟩

theorem somewhere_map_apply {elements : List Tree} (firm : ∀ element ∈ elements, Firm element) :
    Somewhere OpensExponent (elements.map Pass.exponents.apply) ↔
      Somewhere OpensExponent elements := by
  induction elements with
  | nil => rfl
  | cons first rest ih =>
    obtain ⟨here, behind⟩ := List.forall_mem_cons.mp firm
    rw [List.map_cons, somewhere_cons, somewhere_cons, opensExponent_cons, opensExponent_cons,
      isOperand_apply (by decide) here, map_apply_eq_sign_cons_iff behind, ih behind]

section
variable {tree : Tree}

theorem forall_children_visit {P : List Tree → Prop} (firm : Firm tree) :
    (∀ child ∈ (Pass.exponents.visit tree).collapse.children, Nowhere P child) ↔
      ∀ child ∈ tree.children, Nowhere P child := by
  by_cases cluster : ∃ elements, tree = .cluster elements
  · obtain ⟨elements, rfl⟩ := cluster
    have folds : Folds .exponents elements (exponentRule.fold elements) :=
      folds_fold .exponent (fun _ _ => .refl _) elements
    rw [children, ← folds.forall_nowhere]
    rcases collapse_exponents firm with same | ⟨made, folded, kind, single⟩
    · rw [same, children]
    · rw [single, folded, ← nowhere_inner (inner_of_isMade kind).1]
      simp
  · rw [visit_collapse_of_not_cluster firm fun elements same => cluster ⟨elements, same⟩]

theorem mapChildren_eq_cluster {f : Tree → Tree} {elements : List Tree}
    (mapped : tree.mapChildren f = .cluster elements) :
    ∃ own, tree = .cluster own ∧ elements = own.map f := by
  cases tree with
  | cluster own =>
    cases mapped
    exact ⟨own, rfl, rfl⟩
  | _ => cases mapped

theorem somewhere_visit (firm : Firm tree) :
    (∀ elements, (Pass.exponents.visit tree).collapse.mapChildren Pass.exponents.apply =
      .cluster elements → ¬Somewhere OpensExponent elements) ↔
      ∀ elements, tree = .cluster elements → ¬Somewhere OpensStrand elements := by
  have firm' : Firm (Pass.exponents.visit tree).collapse := firm.collapse_visit (by decide)
  by_cases cluster : ∃ elements, tree = .cluster elements
  · obtain ⟨elements, rfl⟩ := cluster
    simp only [Tree.cluster.injEq, forall_eq', ← somewhere_fold_iff elements]
    rcases collapse_exponents firm with same | ⟨made, folded, kind, single⟩
    · rw [same] at firm' ⊢
      have within : ∀ element ∈ exponentRule.fold elements, Firm element := fun _ => firm'.child
      simp only [mapChildren, Tree.cluster.injEq, forall_eq', somewhere_map_apply within]
    · rw [single, folded]
      refine iff_of_true (fun elements mapped => ?_) ?_
      · obtain ⟨own, rfl, _⟩ := mapChildren_eq_cluster mapped
        cases kind
      · rw [somewhere_cons]
        rintro (opens | behind)
        · cases opens
        · exact somewhere_nil (by rintro ⟨⟩) behind
  · rw [visit_collapse_of_not_cluster firm fun elements same => cluster ⟨elements, same⟩]
    refine iff_of_true (fun elements mapped => ?_) fun elements same =>
      absurd ⟨elements, same⟩ cluster
    obtain ⟨own, same, _⟩ := mapChildren_eq_cluster mapped
    exact absurd ⟨own, same⟩ cluster

theorem nowhere_apply_iff {tree : Tree} (firm : Firm tree) :
    Nowhere OpensExponent (Pass.exponents.apply tree) ↔ Nowhere OpensStrand tree := by
  induction tree using Pass.exponents.induct with
  | step tree ih =>
    have firm' : Firm (Pass.exponents.visit tree).collapse := firm.collapse_visit (by decide)
    have inside (child : Tree) (member : child ∈ (Pass.exponents.visit tree).collapse.children) :
        Nowhere OpensExponent (Pass.exponents.apply child) ↔ Nowhere OpensStrand child :=
      ih child member (firm'.child member)
    rw [Pass.apply_eq, nowhere_iff, somewhere_visit firm, children_mapChildren, List.forall_mem_map,
      forall₂_congr inside, forall_children_visit firm, ← nowhere_iff]

end

/-- For every source: behind the pass for exponents, the third one, no cluster has an operand with a
superscript sign and something more behind it, if and only if in front of the pass no cluster has an
operand with an operator for its exponent, and another superscript sign with something more behind
that. -/
theorem exponents_all_folded_iff (source : String) :
    Nowhere OpensExponent (Pass.exponents.apply
        (Pass.subscripts.apply (Pass.invisibleProduct.apply (parse source)))) ↔
      Nowhere OpensStrand (Pass.subscripts.apply (Pass.invisibleProduct.apply (parse source))) :=
  nowhere_apply_iff (firm_stage source 1)

theorem exponent_behind_raised_plus :
    ¬Nowhere OpensExponent (Pass.exponents.apply
      (Pass.subscripts.apply (Pass.invisibleProduct.apply (parse "a^+^b")))) := by
  have left : Pass.exponents.apply
      (Pass.subscripts.apply (Pass.invisibleProduct.apply (parse "a^+^b"))) =
        .cluster [.scripted (.identifier "a") none (some (.operator Glyph.plus)),
          .operator Glyph.superscript, .identifier "b"] := by
    decide +kernel
  rw [left]
  intro nowhere
  exact nowhere _ (mem_nodes_self _) ⟨_, List.suffix_refl _, .intro rfl _ _⟩

end PlainMath.Layout
