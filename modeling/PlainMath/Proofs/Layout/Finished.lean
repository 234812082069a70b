import PlainMath.Proofs.Layout.BracePairs
import PlainMath.Proofs.Layout.Folding

/-! When a pass has nothing left to do at a node. What a pass folds starts with two neighbours
that belong together in its eyes. Where no neighbours do, the visit changes nothing, and each
visit but the one for exponents leaves no such neighbours behind. -/
namespace PlainMath.Layout
open PlainMath.Tree

/-- No two neighbours are joined. The test may ask whether the second is the last element. -/
def Apart (joined : Tree → Tree → Bool → Bool) : List Tree → Prop
  | first :: second :: rest =>
    joined first second rest.isEmpty = false ∧ Apart joined (second :: rest)
  | _ => True

def isNumbered : Tree → Tree → Bool
  | .identifier _, .number _ => true
  | _, _ => false

namespace Pass

def joins : Pass → (first second : Tree) → (last : Bool) → Bool
  | .subscripts, first, second, _ => first.isOperator Glyph.subscript || isNumbered first second
  | .exponents, first, second, last =>
    first.isOperand && second.isOperator Glyph.superscript && !last
  | .ranges, first, second, _ => takesRange first && (rangeContents? second).isSome
  | .roots, first, _, _ => (radical? first).isSome
  | .fractions, first, _, _ => first.isOperator Glyph.fractionBar
  | .operatorSuperscripts, first, second, last =>
    first.isOperand &&
      (second.isOperator Glyph.prime || last && second.operator?.any Glyph.isFinalMark)
  | .braces, first, second, _ => (braceSide? first).isSome && (twoRows? second).isSome
  | .invisibleProduct, _, _, _ | .operatorMeaning, _, _, _ => false

/-- The pass has nothing to do at the node. A bar in front of everything is no fraction. -/
def Finished : Pass → Tree → Prop
  | .invisibleProduct, .cluster elements =>
    ∀ element ∈ elements, element.isOperator Glyph.invisibleProduct = false
  | .subscripts, .cluster elements => Apart (joins .subscripts) elements
  | .exponents, .cluster elements => Apart (joins .exponents) elements
  | .ranges, .cluster elements => Apart (joins .ranges) elements
  | .roots, .row elements => Apart (joins .roots) elements
  | .roots, .cluster elements => Apart (joins .roots) elements
  | .fractions, .row elements => Apart (joins .fractions) elements.tail
  | .fractions, .cluster elements => Apart (joins .fractions) elements.tail
  | .operatorMeaning, .operator symbol => leftover symbol = symbol
  | .operatorMeaning, .cluster elements =>
    ∀ first ∈ elements.head?, first.isOperator Glyph.factorial = false
  | .operatorSuperscripts, .cluster elements => Apart (joins .operatorSuperscripts) elements
  | .braces, .row elements => Apart (joins .braces) elements
  | .braces, .cluster elements => Apart (joins .braces) elements
  | _, _ => True

end Pass

section
variable {joined : Tree → Tree → Bool → Bool}

theorem Apart.tail {first : Tree} {rest : List Tree} (apart : Apart joined (first :: rest)) :
    Apart joined rest := by
  cases rest with
  | nil => trivial
  | cons second rest => exact apart.2

theorem Apart.cons {first : Tree} {rest : List Tree} (apart : Apart joined rest)
    (free : ∀ second behind, rest = second :: behind →
      joined first second behind.isEmpty = false) : Apart joined (first :: rest) := by
  cases rest with
  | nil => trivial
  | cons second rest => exact ⟨free second rest rfl, apart⟩

theorem Apart.cons_free {first : Tree} {rest : List Tree} (apart : Apart joined rest)
    (free : ∀ second last, joined first second last = false) : Apart joined (first :: rest) :=
  apart.cons fun second behind _ => free second behind.isEmpty

end

section
variable (rule : ScriptRule)

theorem apart_sign_fold
    (attach : ∀ base script, (rule.attach base script).isOperator rule.sign = false)
    (detached : ∀ script done, Apart (fun first _ _ => first.isOperator rule.sign) done →
      Apart (fun first _ _ => first.isOperator rule.sign) (rule.detached script ++ done))
    (elements : List Tree) :
    Apart (fun first _ _ => first.isOperator rule.sign) (rule.fold elements) := by
  have entered (element : Tree) {done : List Tree}
      (apart : Apart (fun first _ _ => first.isOperator rule.sign) done) :
      Apart (fun first _ _ => first.isOperator rule.sign) (rule.enter element done).done := by
    unfold ScriptRule.enter
    split
    · split
      · trivial
      · exact apart.tail
    · rename_i other
      exact apart.cons_free fun _ _ => by simpa using other
  have scanned : Apart (fun first _ _ => first.isOperator rule.sign) (rule.scan elements).done := by
    induction elements with
    | nil => trivial
    | cons element elements ih =>
      change Apart _ (rule.step element (rule.scan elements)).done
      unfold ScriptRule.step
      split
      · exact entered element ih
      · split
        · exact ih.cons_free fun _ _ => attach _ _
        · exact entered element (detached _ _ ih)
  change Apart _ (rule.close (rule.scan elements))
  unfold ScriptRule.close
  split
  · exact scanned
  · exact detached _ _ scanned

theorem fold_of_apart_sign {elements : List Tree}
    (apart : Apart (fun first _ _ => first.isOperator rule.sign) elements) :
    rule.fold elements = elements := by
  have scanned : rule.scan elements = ⟨none, elements⟩ := by
    induction elements with
    | nil => rfl
    | cons element elements ih =>
      change rule.step element (rule.scan elements) = _
      rw [ih apart.tail]
      change rule.enter element elements = _
      unfold ScriptRule.enter
      split
      · rename_i sign
        cases elements with
        | nil => rfl
        | cons next elements => exact absurd sign (by simp [apart.1])
      · rfl
  change rule.close (rule.scan elements) = elements
  rw [scanned]
  rfl

end

theorem implicitSubscripts_cons (first : Tree) (rest : List Tree) :
    ∃ behind, implicitSubscripts (first :: rest) = first :: behind ∨
      ∃ base script, implicitSubscripts (first :: rest) = .scripted base script none :: behind := by
  unfold implicitSubscripts
  split
  · exact ⟨_, .inr ⟨_, _, rfl⟩⟩
  · rename_i same
    cases same
    exact ⟨_, .inl rfl⟩
  · contradiction

theorem apart_implicitSubscripts {elements : List Tree}
    (apart : Apart (fun first _ _ => first.isOperator Glyph.subscript) elements) :
    Apart (Pass.joins .subscripts) (implicitSubscripts elements) := by
  fun_induction implicitSubscripts elements with
  | case1 symbol numeral rest ih => exact (ih apart.tail.tail).cons_free fun _ _ => rfl
  | case2 element rest other ih =>
    refine (ih apart.tail).cons fun second behind found => ?_
    cases rest with
    | nil => cases found
    | cons next rest =>
      have sign : element.isOperator Glyph.subscript = false := apart.1
      have plain : isNumbered element second = false := by
        obtain ⟨more, same | ⟨base, script, same⟩⟩ := implicitSubscripts_cons next rest
        · rw [same] at found
          cases found
          unfold isNumbered
          split
          · exact absurd rfl (other _ _ _ rfl)
          · rfl
        · rw [same] at found
          cases found
          unfold isNumbered
          split
          · contradiction
          · rfl
      simp [Pass.joins, sign, plain]
  | case3 => trivial

theorem apart_subscripts (elements : List Tree) :
    Apart (Pass.joins .subscripts) (implicitSubscripts (subscriptRule.fold elements)) :=
  apart_implicitSubscripts <| apart_sign_fold subscriptRule (fun _ _ => rfl)
    (fun _ _ apart => apart.cons_free fun _ _ => rfl) elements

theorem subscripts_of_apart {elements : List Tree}
    (apart : Apart (Pass.joins .subscripts) elements) :
    implicitSubscripts (subscriptRule.fold elements) = elements := by
  have signs : Apart (fun first _ _ => first.isOperator Glyph.subscript) elements := by
    induction elements with
    | nil => trivial
    | cons element elements ih =>
      refine (ih apart.tail).cons fun second behind found => ?_
      subst found
      exact (Bool.or_eq_false_iff.mp apart.1).1
  rw [fold_of_apart_sign subscriptRule signs]
  clear signs
  induction elements with
  | nil => rfl
  | cons element elements ih =>
    unfold implicitSubscripts
    split
    · rename_i same
      cases same
      exact absurd apart.1 (by simp [Pass.joins, isNumbered])
    · rename_i same
      cases same
      rw [ih apart.tail]
    · contradiction

theorem exponents_of_apart {elements : List Tree}
    (apart : Apart (Pass.joins .exponents) elements) :
    exponentRule.fold elements = elements := by
  induction elements with
  | nil => rfl
  | cons element elements ih =>
    have behind := ih apart.tail
    change exponentRule.close (exponentRule.scan (element :: elements)) = _
    rcases exponentRule.scan_cons element elements with
      ⟨script, done, waits, operand, _⟩ | entered
    · obtain ⟨sign, more, rfl, found, folded⟩ := ScriptRule.eq_sign_cons_of_waiting waits
      have joined := apart.1
      cases more with
      | nil => cases folded
      | cons next more =>
        have sign : sign.isOperator Glyph.superscript = true := found
        simp [Pass.joins, operand, sign] at joined
    · rw [entered, behind]
      unfold ScriptRule.enter
      split
      · rename_i sign
        cases elements with
        | nil => rfl
        | cons script done =>
          have sign : element = .operator Glyph.superscript := eq_operator_of_isOperator sign
          rw [sign]
          rfl
      · rfl

theorem rangeContents?_bound (target : Tree) (limits : Tree × Option Tree) :
    rangeContents? (bound target limits) = none := by
  unfold bound
  split <;> rfl

theorem foldRanges_cons (target : Tree) (rest : List Tree) :
    ∃ first behind, foldRanges target rest = first :: behind ∧
      (first = target ∨ rangeContents? first = none) := by
  induction rest generalizing target with
  | nil => exact ⟨target, [], rfl, .inl rfl⟩
  | cons next rest ih =>
    unfold foldRanges
    split
    · rename_i contents found
      split
      · obtain ⟨first, behind, folded, same | other⟩ := ih (bound target (bounds contents))
        · exact ⟨first, behind, folded, .inr (same ▸ rangeContents?_bound _ _)⟩
        · exact ⟨first, behind, folded, .inr other⟩
      · exact ⟨target, _, rfl, .inl rfl⟩
    · exact ⟨target, _, rfl, .inl rfl⟩

theorem apart_foldRanges (target : Tree) (rest : List Tree) :
    Apart (Pass.joins .ranges) (foldRanges target rest) := by
  induction rest generalizing target with
  | nil => trivial
  | cons next rest ih =>
    unfold foldRanges
    split
    · split
      · exact ih _
      · rename_i other
        exact (ih next).cons_free fun _ _ => by simp [Pass.joins, other]
    · rename_i other
      refine (ih next).cons fun second behind found => ?_
      obtain ⟨first, more, folded, first_eq⟩ := foldRanges_cons next rest
      rw [found] at folded
      cases folded
      have plain : rangeContents? second = none := first_eq.elim (· ▸ other) id
      simp [Pass.joins, plain]

theorem foldRanges_of_apart {target : Tree} {rest : List Tree}
    (apart : Apart (Pass.joins .ranges) (target :: rest)) :
    foldRanges target rest = target :: rest := by
  induction rest generalizing target with
  | nil => rfl
  | cons next rest ih =>
    have joined := apart.1
    unfold foldRanges
    split
    · rename_i found
      split
      · rename_i takes
        simp [Pass.joins, takes, found] at joined
      · rw [ih apart.2]
    · rw [ih apart.2]

theorem apart_foldRoots (elements : List Tree) :
    Apart (Pass.joins .roots) (foldRoots elements) := by
  induction elements with
  | nil => trivial
  | cons element elements ih =>
    change Apart _ (rootStep element (foldRoots elements))
    unfold rootStep
    split
    · rename_i folded
      rw [folded] at ih
      exact ih.tail.cons_free fun _ _ => rfl
    · rename_i other
      refine ih.cons fun second behind found => ?_
      cases radical : radical? element with
      | none => simp [Pass.joins, radical]
      | some index => exact (other _ _ _ radical found).elim

theorem foldRoots_of_apart {elements : List Tree} (apart : Apart (Pass.joins .roots) elements) :
    foldRoots elements = elements := by
  induction elements with
  | nil => rfl
  | cons element elements ih =>
    change rootStep element (foldRoots elements) = _
    rw [ih apart.tail]
    unfold rootStep
    split
    · rename_i radical
      have joined := apart.1
      simp [Pass.joins, radical] at joined
    · rfl

theorem apart_foldBraces (elements : List Tree) :
    Apart (Pass.joins .braces) (foldBraces elements) := by
  induction elements with
  | nil => trivial
  | cons element elements ih =>
    change Apart _ (braceStep element (foldBraces elements))
    unfold braceStep
    split
    · rename_i side bracket rest signed folded
      split
      · rw [folded] at ih
        exact ih.tail.cons_free fun _ _ => rfl
      · rename_i other
        refine ih.cons fun second behind found => ?_
        rw [folded] at found
        cases found
        simp [Pass.joins, other]
    · rename_i other
      refine ih.cons fun second behind found => ?_
      cases signed : braceSide? element with
      | none => simp [Pass.joins, signed]
      | some side => exact (other _ _ _ signed found).elim

theorem foldBraces_of_apart {elements : List Tree} (apart : Apart (Pass.joins .braces) elements) :
    foldBraces elements = elements := by
  induction elements with
  | nil => rfl
  | cons element elements ih =>
    change braceStep element (foldBraces elements) = _
    rw [ih apart.tail]
    unfold braceStep
    split
    · rename_i signed
      split
      · rename_i rows
        have joined := apart.1
        simp [Pass.joins, signed, rows] at joined
      · rfl
    · rfl

theorem cutAtBar?_eq_none_iff {elements : List Tree} :
    cutAtBar? elements = none ↔ Apart (Pass.joins .fractions) elements.tail := by
  cases elements with
  | nil => simp [cutAtBar?, Apart]
  | cons first rest =>
    simp only [cutAtBar?, List.tail_cons]
    induction rest with
    | nil => simp [Apart]
    | cons next rest ih =>
      cases bar : next.isOperator Glyph.fractionBar with
      | false =>
        have same : (next :: rest).dropWhile (!·.isOperator Glyph.fractionBar) =
            rest.dropWhile (!·.isOperator Glyph.fractionBar) := by simp [bar]
        have apart : Apart (Pass.joins .fractions) (next :: rest) ↔
            Apart (Pass.joins .fractions) rest :=
          ⟨Apart.tail, fun apart => apart.cons_free fun _ _ => bar⟩
        rw [apart, ← ih, same]
        split <;> simp
      | true =>
        have same : (next :: rest).dropWhile (!·.isOperator Glyph.fractionBar) = next :: rest := by
          simp [bar]
        rw [same]
        cases rest with
        | nil => simp [Apart]
        | cons second rest => simp [Apart, Pass.joins, bar]

theorem apart_foldFraction (elements : List Tree) :
    Apart (Pass.joins .fractions) (foldFraction elements).tail := by
  unfold foldFraction
  split
  · trivial
  · rename_i uncut
    exact cutAtBar?_eq_none_iff.mp uncut

theorem foldFraction_of_apart {elements : List Tree}
    (apart : Apart (Pass.joins .fractions) elements.tail) : foldFraction elements = elements := by
  unfold foldFraction
  rw [cutAtBar?_eq_none_iff.mpr apart]

theorem isOperand_raise (base superscript : Tree) : (raise base superscript).isOperand = true := by
  unfold raise
  split <;> rfl

theorem isOperand_raisePrimes {base : Tree} {count : Nat}
    (primed : count = 0 ∨ base.isOperand = true) :
    (raisePrimes base count).isOperand = base.isOperand := by
  unfold raisePrimes
  split
  · rfl
  · rename_i marked
    rw [isOperand_raise, primed.resolve_left marked]

theorem operator?_of_isOperand {tree : Tree} (operand : tree.isOperand = true) :
    tree.operator? = none := by
  cases tree with
  | operator symbol => cases operand
  | _ => rfl

theorem foldMarks_cons (target : Tree) (rest : List Tree) :
    ∃ first behind, foldMarks target 0 rest = first :: behind ∧ (behind = [] → rest = [] ∨
      first.isOperand = true) ∧ (first = target ∨ first.isOperand = true) := by
  suffices general : ∀ count, count = 0 ∨ target.isOperand = true →
      ∃ first behind, foldMarks target count rest = first :: behind ∧
        (behind = [] → rest = [] ∨ first.isOperand = true) ∧
          (first = target ∨ first.isOperand = true) from general 0 (.inl rfl)
  induction rest with
  | nil =>
    intro count primed
    refine ⟨_, [], rfl, fun _ => .inl rfl, ?_⟩
    unfold raisePrimes
    split
    · exact .inl rfl
    · exact .inr (isOperand_raise _ _)
  | cons next rest ih =>
    intro count primed
    unfold foldMarks
    split
    · rename_i prime
      rw [Bool.and_eq_true] at prime
      obtain ⟨first, behind, folded, _, same⟩ := ih (count + 1) (.inr prime.1)
      have operand : first.isOperand = true := same.elim (· ▸ prime.1) id
      exact ⟨first, behind, folded, fun _ => .inr operand, .inr operand⟩
    · dsimp only
      split
      · exact ⟨_, [], rfl, fun _ => .inr (isOperand_raise _ _), .inr (isOperand_raise _ _)⟩
      · refine ⟨_, _, rfl, fun empty => absurd empty (foldMarks_ne_nil next 0 rest), ?_⟩
        unfold raisePrimes
        split
        · exact .inl rfl
        · exact .inr (isOperand_raise _ _)

theorem apart_foldMarks (target : Tree) (count : Nat) (rest : List Tree)
    (primed : count = 0 ∨ target.isOperand = true) :
    Apart (Pass.joins .operatorSuperscripts) (foldMarks target count rest) := by
  induction rest generalizing target count with
  | nil => trivial
  | cons next rest ih =>
    unfold foldMarks
    split
    · rename_i prime
      rw [Bool.and_eq_true] at prime
      exact ih target (count + 1) (.inr prime.1)
    · rename_i unprimed
      dsimp only
      split
      · trivial
      · rename_i unmarked
        refine (ih next 0 (.inl rfl)).cons fun second behind found => ?_
        obtain ⟨first, more, folded, short, same⟩ := foldMarks_cons next rest
        rw [found] at folded
        cases folded
        rw [isOperand_raisePrimes primed] at unmarked
        simp only [Pass.joins, isOperand_raisePrimes primed]
        by_cases operand : second.isOperand = true
        · have plain (symbol : String) : second.isOperator symbol = false := by
            cases second with
            | operator own => cases operand
            | _ => rfl
          simp [plain, operator?_of_isOperand operand]
        · obtain rfl := same.resolve_right operand
          cases base : target.isOperand with
          | false => rfl
          | true =>
            simp only [base, Bool.true_and, Bool.and_eq_true, not_and] at unprimed unmarked
            cases behind with
            | nil =>
              obtain rfl := (short rfl).resolve_right operand
              simp [unprimed, unmarked rfl]
            | cons _ _ => simp [unprimed]

theorem foldMarks_of_apart {target : Tree} {rest : List Tree}
    (apart : Apart (Pass.joins .operatorSuperscripts) (target :: rest)) :
    foldMarks target 0 rest = target :: rest := by
  induction rest generalizing target with
  | nil => rfl
  | cons next rest ih =>
    have joined := apart.1
    simp only [Pass.joins, Bool.and_eq_false_iff, Bool.or_eq_false_iff] at joined
    unfold foldMarks
    split
    · rename_i prime
      simp_all
    · dsimp only
      split
      · rename_i mark
        simp_all [raisePrimes]
      · rw [ih apart.2]
        rfl

theorem leftover_leftover (symbol : String) : leftover (leftover symbol) = leftover symbol := by
  unfold leftover
  split
  · rfl
  · split
    · rfl
    · simp_all

theorem isOperator_logicalNot (symbol : String) :
    isOperator Glyph.factorial
      (.operator (if symbol = Glyph.factorial then Glyph.logicalNot else symbol)) = false := by
  split
  · rfl
  · simpa [isOperator]

namespace Pass

theorem visit_of_finished {pass : Pass} {tree : Tree} (finished : pass.Finished tree) :
    pass.visit tree = tree := by
  cases pass with
  | invisibleProduct =>
    cases tree with
    | cluster elements =>
      have kept : elements.filter (!·.isOperator Glyph.invisibleProduct) = elements :=
        List.filter_eq_self.mpr fun element member => by simp [finished element member]
      exact congrArg Tree.cluster kept
    | _ => rfl
  | subscripts =>
    cases tree with
    | cluster elements => exact congrArg Tree.cluster (subscripts_of_apart finished)
    | _ => rfl
  | exponents =>
    cases tree with
    | cluster elements => exact congrArg Tree.cluster (exponents_of_apart finished)
    | _ => rfl
  | ranges =>
    simp only [visit]
    unfold Layout.ranges
    split
    · exact congrArg Tree.cluster (foldRanges_of_apart finished)
    · rfl
  | roots =>
    cases tree with
    | row elements => exact congrArg Tree.row (foldRoots_of_apart finished)
    | cluster elements => exact congrArg Tree.cluster (foldRoots_of_apart finished)
    | _ => rfl
  | fractions =>
    cases tree with
    | row elements => exact congrArg Tree.row (foldFraction_of_apart finished)
    | cluster elements => exact congrArg Tree.cluster (foldFraction_of_apart finished)
    | _ => rfl
  | operatorMeaning =>
    simp only [visit]
    unfold Layout.operatorMeaning
    split
    · exact congrArg Tree.operator finished
    · rename_i symbol rest
      have other : symbol ≠ Glyph.factorial := by
        simpa [isOperator] using finished (.operator symbol) rfl
      rw [if_neg other]
    · rfl
  | operatorSuperscripts =>
    simp only [visit]
    unfold Layout.operatorSuperscripts
    split
    · exact congrArg Tree.cluster (foldMarks_of_apart finished)
    · rfl
  | braces =>
    cases tree with
    | row elements => exact congrArg Tree.row (foldBraces_of_apart finished)
    | cluster elements => exact congrArg Tree.cluster (foldBraces_of_apart finished)
    | _ => rfl

/-- A visit finishes the pass at the node. Exponents are the exception: a sign that found no
operand can get one in front of it by the same visit. -/
theorem finished_visit {pass : Pass} (other : pass ≠ .exponents) (tree : Tree) :
    pass.Finished (pass.visit tree) := by
  cases pass with
  | invisibleProduct =>
    cases tree with
    | cluster elements =>
      intro element member
      simpa using (List.mem_filter.mp member).2
    | _ => trivial
  | subscripts =>
    cases tree with
    | cluster elements => exact apart_subscripts elements
    | _ => trivial
  | exponents => contradiction
  | ranges =>
    cases tree with
    | cluster elements =>
      cases elements with
      | nil => trivial
      | cons first rest => exact apart_foldRanges first rest
    | _ => trivial
  | roots =>
    cases tree with
    | row elements => exact apart_foldRoots elements
    | cluster elements => exact apart_foldRoots elements
    | _ => trivial
  | fractions =>
    cases tree with
    | row elements => exact apart_foldFraction elements
    | cluster elements => exact apart_foldFraction elements
    | _ => trivial
  | operatorMeaning =>
    cases tree with
    | operator symbol => exact leftover_leftover symbol
    | cluster elements =>
      cases elements with
      | nil => exact fun first member => by cases member
      | cons first rest =>
        cases first with
        | operator symbol =>
          intro first member
          cases member
          exact isOperator_logicalNot symbol
        | _ =>
          intro first member
          cases member
          rfl
    | _ => trivial
  | operatorSuperscripts =>
    cases tree with
    | cluster elements =>
      cases elements with
      | nil => trivial
      | cons first rest => exact apart_foldMarks first 0 rest (.inl rfl)
    | _ => trivial
  | braces =>
    cases tree with
    | row elements => exact apart_foldBraces elements
    | cluster elements => exact apart_foldBraces elements
    | _ => trivial

end Pass
end PlainMath.Layout
