import Mathlib.Logic.Relation
import PlainMath.Proofs.Layout.BracePairs
import PlainMath.Proofs.Layout.Folding

/-! What a pass does to the elements of a row or a cluster, one replacement after the other: a
few neighbours make way for the node that is made of them. -/
namespace PlainMath.Layout
open PlainMath.Tree

def isMade : Tree → Bool
  | .fraction .. | .scripted .. | .root .. | .limits .. | .stackedLimits .. | .brace .. => true
  | _ => false

/-- The neighbours that a pass takes, and what it makes of them. -/
inductive Makes : Pass → List Tree → Tree → Prop
  | subscript {base : Tree} (script : Tree) (operand : base.isOperand = true) :
      Makes .subscripts [base, .operator Glyph.subscript, script]
        (.scripted base (some script.unwrap) none)
  | blankBase (script : Tree) :
      Makes .subscripts [.operator Glyph.subscript, script]
        (.scripted (.identifier "") (some script.unwrap) none)
  | numbered (symbol numeral : String) :
      Makes .subscripts [.identifier symbol, .number numeral]
        (.scripted (.identifier symbol) (some (.number numeral)) none)
  | exponent {base : Tree} (script : Tree) (operand : base.isOperand = true) :
      Makes .exponents [base, .operator Glyph.superscript, script] (raise base script.unwrap)
  | bound {target bracket : Tree} {contents : Option Tree} (takes : takesRange target = true)
      (found : rangeContents? bracket = some contents) :
      Makes .ranges [target, bracket] (bound target (bounds contents))
  | root {radical : Tree} {index : Option Tree} (radicand : Tree)
      (found : radical? radical = some index) :
      Makes .roots [radical, radicand] (.root radicand.unwrap index)
  | fraction {before behind : List Tree} {bar : Tree}
      (found : bar.isOperator Glyph.fractionBar = true) (numerator : before ≠ [])
      (denominator : behind ≠ []) :
      Makes .fractions (before ++ bar :: behind) (.fraction (side before) (side behind))
  | primes {base : Tree} (count : Nat) (operand : base.isOperand = true) :
      Makes .operatorSuperscripts (base :: List.replicate (count + 1) (.operator Glyph.prime))
        (raise base (primes (count + 1)))
  | mark {base : Tree} (symbol : String) (operand : base.isOperand = true) :
      Makes .operatorSuperscripts [base, .operator symbol] (raise base (.operator symbol))
  | brace {sign bracket : Tree} {side : Side} {comment base : List Tree}
      (signed : braceSide? sign = some side) (rows : twoRows? bracket = some (comment, base)) :
      Makes .braces [sign, bracket] (.brace side (sideBySide base) (sideBySide comment))

inductive Replaces (pass : Pass) : List Tree → List Tree → Prop
  | make {block : List Tree} {made : Tree} (front behind : List Tree)
      (makes : Makes pass block made) :
      Replaces pass (front ++ block ++ behind) (front ++ made :: behind)

def Folds (pass : Pass) : List Tree → List Tree → Prop := Relation.ReflTransGen (Replaces pass)

variable {pass : Pass}

theorem isMade_raise (base superscript : Tree) : isMade (raise base superscript) = true := by
  unfold raise
  split <;> rfl

theorem Makes.isMade {block : List Tree} {made : Tree} (makes : Makes pass block made) :
    isMade made = true := by
  cases makes with
  | bound =>
    unfold Layout.bound
    split <;> rfl
  | exponent | primes | mark => exact isMade_raise _ _
  | _ => rfl

namespace Folds
variable {elements folded : List Tree}

theorem refl (elements : List Tree) : Folds pass elements elements := Relation.ReflTransGen.refl

theorem trans {between : List Tree} (first : Folds pass elements between)
    (second : Folds pass between folded) : Folds pass elements folded :=
  Relation.ReflTransGen.trans first second

theorem of_makes {block : List Tree} {made : Tree} (makes : Makes pass block made)
    (behind : List Tree) : Folds pass (block ++ behind) (made :: behind) :=
  .single (.make [] behind makes)

theorem cons (folds : Folds pass elements folded) (element : Tree) :
    Folds pass (element :: elements) (element :: folded) := by
  induction folds with
  | refl => exact refl _
  | tail _ replaces ih =>
    cases replaces with
    | make front behind makes =>
      exact Relation.ReflTransGen.tail ih (.make (element :: front) behind makes)

theorem single {only : Tree} (folds : Folds pass elements [only]) :
    elements = [only] ∨ ∃ block, Makes pass block only := by
  rcases Relation.ReflTransGen.cases_tail folds with same | ⟨between, _, replaces⟩
  · exact .inl same.symm
  · generalize outcome : [only] = folded at replaces
    cases replaces with
    | make front behind makes =>
      cases front with
      | nil =>
        cases outcome
        exact .inr ⟨_, makes⟩
      | cons first front => simp at outcome

end Folds

theorem folds_fold {rule : ScriptRule}
    (attach : ∀ {base} script, base.isOperand = true →
      Makes pass [base, .operator rule.sign, script] (rule.attach base script))
    (detached : ∀ script done,
      Folds pass (.operator rule.sign :: script :: done) (rule.detached script ++ done))
    (elements : List Tree) : Folds pass elements (rule.fold elements) := by
  -- an operand in front of a sign looks two elements ahead
  suffices both : Folds pass elements (rule.fold elements) ∧
      Folds pass elements.tail (rule.fold elements.tail) from both.1
  induction elements with
  | nil => exact ⟨.refl [], .refl []⟩
  | cons element elements ih =>
    obtain ⟨inner, tail⟩ := ih
    refine ⟨?_, inner⟩
    have folded := ScriptRule.folded_cons rule element elements
    generalize rule.fold (element :: elements) = outcome at folded
    cases folded with
    | last sign empty => exact empty ▸ inner.cons element
    | detached sign folded =>
      rw [folded] at inner
      rw [eq_operator_of_isOperator sign]
      exact (inner.cons _).trans (detached _ _)
    | attached operand here found folded =>
      subst here
      rw [List.tail_cons, folded] at tail
      rw [eq_operator_of_isOperator found]
      exact ((tail.cons _).cons element).trans (.of_makes (attach _ operand) _)
    | kept => exact inner.cons element

theorem folds_implicitSubscripts (elements : List Tree) :
    Folds .subscripts elements (implicitSubscripts elements) := by
  fun_induction implicitSubscripts elements with
  | case1 symbol numeral rest ih =>
    exact ((ih.cons _).cons _).trans (.of_makes (.numbered symbol numeral) _)
  | case2 element rest _ ih => exact ih.cons element
  | case3 => exact .refl []

theorem folds_foldRanges (target : Tree) (rest : List Tree) :
    Folds .ranges (target :: rest) (foldRanges target rest) := by
  induction rest generalizing target with
  | nil => exact .refl [target]
  | cons next rest ih =>
    unfold foldRanges
    split
    · rename_i contents found
      split
      · rename_i takes
        exact (Folds.of_makes (.bound takes found) rest).trans (ih _)
      · exact (ih next).cons target
    · exact (ih next).cons target

theorem folds_foldRoots (elements : List Tree) : Folds .roots elements (foldRoots elements) := by
  induction elements with
  | nil => exact .refl []
  | cons element elements ih =>
    change Folds _ _ (rootStep element (foldRoots elements))
    unfold rootStep
    split
    · rename_i found folded
      rw [folded] at ih
      exact (ih.cons element).trans (.of_makes (.root _ found) _)
    · exact ih.cons element

theorem folds_foldFraction (elements : List Tree) :
    Folds .fractions elements (foldFraction elements) := by
  unfold foldFraction
  split
  · rename_i before behind found
    unfold cutAtBar? at found
    split at found
    · cases found
    · rename_i first rest
      split at found
      · rename_i bar next behind' parts
        cases found
        have whole : first :: rest = first :: rest.takeWhile (!·.isOperator Glyph.fractionBar) ++
            bar :: next :: behind' := by
          rw [← parts, List.cons_append, List.takeWhile_append_dropWhile]
        have found := List.head?_dropWhile_not (!·.isOperator Glyph.fractionBar) rest
        rw [parts] at found
        rw [whole]
        simpa using Folds.of_makes (.fraction (by simpa using found) (List.cons_ne_nil _ _)
          (List.cons_ne_nil _ _)) []
      · cases found
  · exact .refl elements

theorem folds_raisePrimes {base : Tree} {count : Nat} (primed : count = 0 ∨ base.isOperand = true)
    (behind : List Tree) :
    Folds .operatorSuperscripts
      (base :: (List.replicate count (.operator Glyph.prime) ++ behind))
      (raisePrimes base count :: behind) := by
  cases count with
  | zero => exact .refl _
  | succ count =>
    exact .of_makes (.primes count (primed.resolve_left (Nat.succ_ne_zero count))) behind

theorem folds_foldMarks {target : Tree} (count : Nat)
    (primed : count = 0 ∨ target.isOperand = true) (rest : List Tree) :
    Folds .operatorSuperscripts
      (target :: (List.replicate count (.operator Glyph.prime) ++ rest))
      (foldMarks target count rest) := by
  induction rest generalizing target count with
  | nil => exact folds_raisePrimes primed []
  | cons next rest ih =>
    have raised := folds_raisePrimes primed (next :: rest)
    unfold foldMarks
    split
    · rename_i prime
      rw [Bool.and_eq_true] at prime
      have longer := ih (count + 1) (.inr prime.1)
      rw [List.replicate_succ', List.append_assoc] at longer
      rwa [eq_operator_of_isOperator prime.2]
    · dsimp only
      split
      · rename_i last
        simp only [Bool.and_eq_true, List.isEmpty_iff] at last
        obtain ⟨⟨operand, rfl⟩, mark⟩ := last
        refine raised.trans ?_
        cases next with
        | operator symbol => exact .of_makes (.mark symbol operand) []
        | _ => cases mark
      · exact raised.trans ((ih 0 (.inl rfl)).cons _)

theorem folds_foldBraces (elements : List Tree) :
    Folds .braces elements (foldBraces elements) := by
  induction elements with
  | nil => exact .refl []
  | cons element elements ih =>
    change Folds _ _ (braceStep element (foldBraces elements))
    unfold braceStep
    split
    · rename_i signed folded
      split
      · rename_i rows
        rw [folded] at ih
        exact (ih.cons element).trans (.of_makes (.brace signed rows) _)
      · exact ih.cons element
    · exact ih.cons element

theorem folds_visit_cluster (product : pass ≠ .invisibleProduct) (meaning : pass ≠ .operatorMeaning)
    (elements : List Tree) :
    ∃ folded, pass.visit (.cluster elements) = .cluster folded ∧ Folds pass elements folded := by
  cases pass with
  | invisibleProduct => contradiction
  | subscripts =>
    refine ⟨_, rfl, .trans ?_ (folds_implicitSubscripts _)⟩
    exact folds_fold .subscript (fun script done => .of_makes (.blankBase script) done) elements
  | exponents =>
    exact ⟨_, rfl, folds_fold .exponent (fun script done => .refl _) elements⟩
  | ranges =>
    cases elements with
    | nil => exact ⟨[], rfl, .refl []⟩
    | cons first rest => exact ⟨_, rfl, folds_foldRanges first rest⟩
  | roots => exact ⟨_, rfl, folds_foldRoots elements⟩
  | fractions => exact ⟨_, rfl, folds_foldFraction elements⟩
  | operatorMeaning => contradiction
  | operatorSuperscripts =>
    cases elements with
    | nil => exact ⟨[], rfl, .refl []⟩
    | cons first rest => exact ⟨_, rfl, folds_foldMarks 0 (.inl rfl) rest⟩
  | braces => exact ⟨_, rfl, folds_foldBraces elements⟩

theorem folds_visit_row (pass : Pass) (elements : List Tree) :
    ∃ folded, pass.visit (.row elements) = .row folded ∧ Folds pass elements folded := by
  cases pass with
  | roots => exact ⟨_, rfl, folds_foldRoots elements⟩
  | fractions => exact ⟨_, rfl, folds_foldFraction elements⟩
  | braces => exact ⟨_, rfl, folds_foldBraces elements⟩
  | _ => exact ⟨elements, rfl, .refl elements⟩

end PlainMath.Layout
