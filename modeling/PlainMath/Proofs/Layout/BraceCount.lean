import Mathlib.Algebra.BigOperators.Group.List.Basic
import Mathlib.Algebra.Ring.Nat
import PlainMath.Proofs.Layout.BracePairs
import PlainMath.Proofs.Layout.Shape

/-! How many labelled braces layout leaves of the pairs that were read. A pair becomes a brace
unless one of the passes before the last takes it apart, and each pass does so only next to the
signs that it folds. -/
namespace PlainMath.Tree

def total (weigh : Tree → Nat) (tree : Tree) : Nat := (tree.nodes.map weigh).sum

def totals (weigh : Tree → Nat) (trees : List Tree) : Nat := (trees.map (total weigh)).sum

section
variable {weigh : Tree → Nat}

@[simp] theorem totals_nil : totals weigh [] = 0 := rfl

@[simp] theorem totals_cons (tree : Tree) (trees : List Tree) :
    totals weigh (tree :: trees) = tree.total weigh + totals weigh trees := by
  simp [totals]

@[simp] theorem totals_append (first second : List Tree) :
    totals weigh (first ++ second) = totals weigh first + totals weigh second := by
  simp [totals]

theorem total_eq (weigh : Tree → Nat) (tree : Tree) :
    tree.total weigh = weigh tree + totals weigh tree.children := by
  have below (trees : List Tree) : ((trees.flatMap nodes).map weigh).sum = totals weigh trees := by
    induction trees with
    | nil => rfl
    | cons tree trees ih =>
      rw [List.flatMap_cons, List.map_append, List.sum_append, ih, totals_cons, total]
  rw [total, nodes_eq, List.map_cons, List.sum_cons, below]

theorem totals_eq_zero (nothing : ∀ tree, weigh tree = 0) (trees : List Tree) :
    totals weigh trees = 0 := by
  have each (tree : Tree) : tree.total weigh = 0 := List.sum_eq_zero (by simp [nothing])
  exact List.sum_eq_zero (by simp [each])

theorem totals_le {weigh' lost : Tree → Nat} {f : Tree → Tree} {trees : List Tree}
    (each : ∀ tree ∈ trees, tree.total weigh ≤ (f tree).total weigh' + tree.total lost) :
    totals weigh trees ≤ totals weigh' (trees.map f) + totals lost trees := by
  induction trees with
  | nil => exact Nat.le_refl _
  | cons tree trees ih =>
    rw [List.forall_mem_cons] at each
    have rest := ih each.2
    have first := each.1
    simp only [List.map_cons, totals_cons]
    omega

end
end PlainMath.Tree

namespace PlainMath.Layout
open PlainMath.Tree

def ownPairs : Tree → Nat
  | .row elements => pairs elements
  | .cluster elements => pairs elements
  | _ => 0

def isBrace : Tree → Bool
  | .brace .. => true
  | _ => false

def pairCount (tree : Tree) : Nat := tree.total ownPairs

def braceCount (tree : Tree) : Nat := tree.total fun node => (isBrace node).toNat

/-- The pairs that a pass takes apart at one node. A radical with an upper bound drops the bound,
and all pairs in it. -/
def taken : Pass → Tree → Nat
  | .subscripts, .cluster elements => pairsWhere besideSubscript [] elements
  | .exponents, .cluster elements => pairsWhere besideSuperscript [] elements
  | .ranges, .cluster elements => pairsWhere beforeRange [] elements
  | .roots, .row elements => pairsWhere underRadical [] elements
  | .roots, .cluster elements => pairsWhere underRadical [] elements
  | .roots, .limits glyph _ upper =>
    if glyph = Glyph.radical then (upper.map pairCount).getD 0 else 0
  | .operatorSuperscripts, .cluster elements => pairsWhere beforeMark [] elements
  | _, _ => 0

/-- The pairs that the passes take apart, each in the tree that the passes before it have left. -/
def lostPairs : List Pass → Tree → Nat
  | [], _ => 0
  | pass :: passes, tree => tree.total (taken pass) + lostPairs passes (pass.apply tree)

def Sequential (weigh : Tree → Nat) : Prop := ∀ tree : Tree, tree.elements? = none → weigh tree = 0

section
variable {weigh : Tree → Nat} (sequential : Sequential weigh)
include sequential

theorem total_inner {tree : Tree} (inner : tree.elements? = none) :
    tree.total weigh = totals weigh tree.children := by
  rw [total_eq, sequential tree inner, Nat.zero_add]

theorem total_operator (symbol : String) : (operator symbol).total weigh = 0 := by
  rw [total_inner sequential rfl]
  rfl

theorem total_of_isOperator {tree : Tree} {symbol : String}
    (found : tree.isOperator symbol = true) : tree.total weigh = 0 := by
  rw [eq_operator_of_isOperator found, total_operator sequential]

theorem total_bracketed (left right : String) (contents : Option Tree) :
    (bracketed left right contents).total weigh = totals weigh contents.toList :=
  total_inner sequential rfl

theorem total_scripted (base : Tree) (subscript superscript : Option Tree) :
    (scripted base subscript superscript).total weigh =
      base.total weigh + (totals weigh subscript.toList + totals weigh superscript.toList) := by
  rw [total_inner sequential rfl, children, totals_cons, totals_append]

omit sequential in
theorem total_unwrap (bare : ∀ left right contents, weigh (.bracketed left right contents) = 0)
    (tree : Tree) : tree.unwrap.total weigh = tree.total weigh := by
  unfold unwrap
  split
  · rw [total_eq weigh (.bracketed ..), bare]
    simp [children]
  · rfl

theorem total_raise (base superscript : Tree) :
    (raise base superscript).total weigh = base.total weigh + superscript.total weigh := by
  unfold raise
  split <;> simp [total_scripted sequential]
  omega

structure ScriptRule.Weighs (rule : ScriptRule) (weigh : Tree → Nat) : Prop where
  attach : ∀ base script, (rule.attach base script).total weigh =
    base.total weigh + script.total weigh
  detached : ∀ script, totals weigh (rule.detached script) = script.total weigh

theorem subscriptRule_weighs : subscriptRule.Weighs weigh where
  attach base script := by
    simp [subscriptRule, total_scripted sequential, total_unwrap fun _ _ _ => sequential _ rfl]
  detached script := by
    have blank : (identifier "").total weigh = 0 := total_inner sequential rfl
    simp [subscriptRule, total_scripted sequential, total_unwrap fun _ _ _ => sequential _ rfl,
      blank]

theorem exponentRule_weighs : exponentRule.Weighs weigh where
  attach base script := by
    simp [exponentRule, total_raise sequential, total_unwrap fun _ _ _ => sequential _ rfl]
  detached script := by
    simp [exponentRule, total_operator sequential]

theorem totals_fold {rule : ScriptRule} (weighs : rule.Weighs weigh) (elements : List Tree) :
    totals weigh (rule.fold elements) = totals weigh elements := by
  suffices both : totals weigh (rule.fold elements) = totals weigh elements ∧
      totals weigh (rule.fold elements.tail) = totals weigh elements.tail from both.1
  induction elements with
  | nil => exact ⟨rfl, rfl⟩
  | cons element elements ih =>
    obtain ⟨inner, tail⟩ := ih
    refine ⟨?_, inner⟩
    have folded := ScriptRule.folded_cons rule element elements
    generalize rule.fold (element :: elements) = outcome at folded
    cases folded with
    | last sign empty =>
      rw [empty] at inner
      simp [← inner]
    | detached sign folded =>
      rw [folded] at inner
      rw [totals_append, weighs.detached, totals_cons, total_of_isOperator sequential sign, ← inner,
        totals_cons, Nat.zero_add]
    | attached operand here found folded =>
      subst here
      rw [List.tail_cons, folded] at tail
      rw [totals_cons, weighs.attach, totals_cons, totals_cons,
        total_of_isOperator sequential found, ← tail, totals_cons]
      omega
    | kept => rw [totals_cons, totals_cons, inner]

theorem totals_implicitSubscripts (elements : List Tree) :
    totals weigh (implicitSubscripts elements) = totals weigh elements := by
  fun_induction implicitSubscripts elements with
  | case1 symbol numeral rest ih => simp [total_scripted sequential, ih]; omega
  | case2 element rest _ ih => simp [ih]
  | case3 => rfl

theorem totals_filter (symbol : String) (elements : List Tree) :
    totals weigh (elements.filter (!·.isOperator symbol)) = totals weigh elements := by
  induction elements with
  | nil => rfl
  | cons element elements ih =>
    rw [List.filter_cons]
    split
    · rw [totals_cons, totals_cons, ih]
    · rename_i operator
      rw [totals_cons, total_of_isOperator sequential (by simpa using operator), ih, Nat.zero_add]

theorem total_raisePrimes (base : Tree) (count : Nat) :
    (raisePrimes base count).total weigh = base.total weigh := by
  unfold raisePrimes
  split
  · rfl
  · rw [total_raise sequential, primes, total_operator sequential, Nat.add_zero]

theorem totals_foldMarks (target : Tree) (count : Nat) (rest : List Tree) :
    totals weigh (foldMarks target count rest) = target.total weigh + totals weigh rest := by
  induction rest generalizing target count with
  | nil => simp [foldMarks, total_raisePrimes sequential]
  | cons next rest ih =>
    unfold foldMarks
    split
    · rename_i prime
      rw [Bool.and_eq_true] at prime
      rw [ih, totals_cons, total_of_isOperator sequential prime.2, Nat.zero_add]
    · dsimp only
      split
      · rename_i last
        simp only [Bool.and_eq_true, List.isEmpty_iff] at last
        simp [last.1.2, total_raise sequential, total_raisePrimes sequential]
      · rw [totals_cons, ih, total_raisePrimes sequential, totals_cons]

end

theorem eq_append_of_cut {symbol : String} {elements behind : List Tree} {cut : Tree}
    (found : elements.dropWhile (!·.isOperator symbol) = cut :: behind) :
    cut.isOperator symbol = true ∧
      elements = elements.takeWhile (!·.isOperator symbol) ++ cut :: behind := by
  have first := List.head?_dropWhile_not (fun element : Tree => !element.isOperator symbol) elements
  rw [found] at first
  refine ⟨by simpa using first, ?_⟩
  rw [← found, List.takeWhile_append_dropWhile]

/-- A row that is cut at range dots weighs what its two sides weigh, and a row with at most one
element weighs nothing. -/
structure Cuttable (weigh : Tree → Nat) : Prop where
  short : ∀ {elements}, elements.length ≤ 1 → weigh (.row elements) = 0
  cut : ∀ {dots}, dots.isOperator Glyph.range = true → ∀ before behind,
    weigh (.row (before ++ dots :: behind)) = weigh (.row before) + weigh (.row behind)

section
variable {weigh : Tree → Nat} (sequential : Sequential weigh) (cuttable : Cuttable weigh)
include sequential cuttable

omit sequential in
theorem totals_ofRow? (elements : List Tree) :
    totals weigh (ofRow? elements).toList = weigh (.row elements) + totals weigh elements := by
  match elements with
  | [] => simp [ofRow?, cuttable.short]
  | [only] => simp [ofRow?, cuttable.short]
  | first :: second :: rest =>
    have several : ofRow? (first :: second :: rest) = some (.row (first :: second :: rest)) := rfl
    rw [several, Option.toList_some, totals_cons, total_eq, children, totals_nil, Nat.add_zero]

theorem totals_bounds (contents : Option Tree) :
    (bounds contents).1.total weigh + totals weigh (bounds contents).2.toList =
      totals weigh contents.toList := by
  have empty : emptyRow.total weigh = 0 := by
    rw [total_eq, emptyRow, cuttable.short (by simp)]
    rfl
  unfold bounds
  split
  · simpa using empty
  · rename_i elements
    split
    · simp
    · rename_i dots upper found
      obtain ⟨range, whole⟩ := eq_append_of_cut found
      have lower (lower : List Tree) : ((ofRow? lower).getD emptyRow).total weigh =
          totals weigh (ofRow? lower).toList := by
        cases ofRow? lower <;> simp [empty]
      have sides := cuttable.cut range (elements.takeWhile (!·.isOperator Glyph.range)) upper
      rw [← whole] at sides
      have parts := congrArg (totals weigh) whole
      rw [totals_append, totals_cons, total_of_isOperator sequential range] at parts
      rw [lower, totals_ofRow? cuttable, totals_ofRow? cuttable, Option.toList_some, totals_cons,
        totals_nil, total_eq, sides, children, parts]
      omega
  · simp

omit cuttable in
theorem total_bound (target : Tree) (bounds : Tree × Option Tree) :
    (bound target bounds).total weigh =
      target.total weigh + (bounds.1.total weigh + totals weigh bounds.2.toList) := by
  unfold bound
  split
  · rw [total_inner sequential rfl, total_operator sequential, children, totals_cons, Nat.zero_add]
  · rw [total_inner sequential rfl, children, totals_cons, totals_cons]
  · rw [total_inner sequential rfl, children, totals_cons, totals_cons]
  · rw [total_scripted sequential, Option.toList_some, totals_cons, totals_nil, Nat.add_zero]

theorem totals_foldRanges (target : Tree) (rest : List Tree) :
    totals weigh (foldRanges target rest) = target.total weigh + totals weigh rest := by
  induction rest generalizing target with
  | nil => simp [foldRanges]
  | cons next rest ih =>
    unfold foldRanges
    split
    · rename_i contents found
      split
      · obtain ⟨right, rfl⟩ := rangeContents?_eq_some found
        rw [ih, total_bound sequential, totals_bounds sequential cuttable, totals_cons,
          total_bracketed sequential, Nat.add_assoc]
      · rw [totals_cons, ih, totals_cons]
    · rw [totals_cons, ih, totals_cons]

end

theorem ownPairs_sequential : Sequential ownPairs := by
  intro tree inner
  cases tree with
  | row _ | cluster _ => cases inner
  | _ => rfl

theorem taken_sequential (pass : Pass) (other : pass ≠ .roots) : Sequential (taken pass) := by
  intro tree inner
  cases tree with
  | row _ | cluster _ => cases inner
  | _ =>
    cases pass with
    | roots => exact absurd rfl other
    | _ => rfl

theorem cuttable_ownPairs : Cuttable ownPairs where
  short {elements} few := by
    match elements with
    | [] => rfl
    | [only] => rfl
  cut found before behind := by
    rw [eq_operator_of_isOperator found]
    exact pairs_append_cons rfl (by decide) before behind

theorem cuttable_taken_ranges : Cuttable (taken .ranges) := ⟨fun _ => rfl, fun _ _ _ => rfl⟩

/-- What a visit makes has all pairs of the tree but those that the pass takes apart, and it
leaves no more to be taken apart. -/
def Accounts (pass : Pass) (tree visited : Tree) : Prop :=
  pairCount tree + totals (taken pass) visited.children ≤
    pairCount visited + tree.total (taken pass)

theorem accounts_refl (pass : Pass) (tree : Tree) : Accounts pass tree tree := by
  unfold Accounts
  rw [total_eq (taken pass)]
  omega

theorem pairCount_cluster (elements : List Tree) :
    pairCount (.cluster elements) = pairs elements + totals ownPairs elements := total_eq _ _

theorem pairCount_row (elements : List Tree) :
    pairCount (.row elements) = pairs elements + totals ownPairs elements := total_eq _ _

theorem accounts_elements {pass : Pass} {tree visited : Tree} {elements folded : List Tree}
    (here : tree.elements? = some elements) (there : visited.elements? = some folded)
    (spared : pairs elements ≤ pairs folded + taken pass tree)
    (balance : totals ownPairs elements + totals (taken pass) folded ≤
      totals ownPairs folded + totals (taken pass) elements) :
    Accounts pass tree visited := by
  have counted {tree : Tree} {elements : List Tree} (here : tree.elements? = some elements) :
      pairCount tree = pairs elements + totals ownPairs elements ∧ tree.children = elements := by
    cases tree with
    | row _ | cluster _ =>
      cases here
      exact ⟨total_eq _ _, rfl⟩
    | _ => cases here
  unfold Accounts
  rw [(counted here).1, (counted there).1, total_eq (taken pass), (counted here).2,
    (counted there).2]
  omega

theorem accounts_cluster {pass : Pass} {elements folded : List Tree}
    (spared : pairs elements ≤ pairs folded + taken pass (.cluster elements))
    (kept : totals ownPairs folded = totals ownPairs elements)
    (left : totals (taken pass) folded = totals (taken pass) elements) :
    Accounts pass (.cluster elements) (.cluster folded) :=
  accounts_elements rfl rfl spared (by rw [kept, left])

theorem accounts_of_le {pass : Pass} (nothing : ∀ tree, taken pass tree = 0) {tree visited : Tree}
    (le : pairCount tree ≤ pairCount visited) : Accounts pass tree visited := by
  unfold Accounts
  rw [totals_eq_zero nothing]
  exact Nat.le_trans le (Nat.le_add_right _ _)

theorem radical?_balance {tree : Tree} {index : Option Tree} (found : radical? tree = some index) :
    tree.total ownPairs + totals (taken .roots) index.toList ≤
      totals ownPairs index.toList + tree.total (taken .roots) := by
  unfold radical? at found
  split at found
  · split at found
    · cases found
      rw [total_operator ownPairs_sequential]
      exact Nat.zero_le _
    · cases found
  · rename_i glyph lower upper
    split at found
    · rename_i radical
      cases found
      have dropped : taken .roots (.limits glyph lower upper) = totals ownPairs upper.toList := by
        cases upper <;> simp [taken, radical, pairCount]
      rw [total_inner ownPairs_sequential rfl, total_eq (taken .roots), dropped]
      simp only [children, totals_cons, Option.toList_some, totals_nil]
      omega
    · cases found
  · cases found

theorem foldRoots_balance (elements : List Tree) :
    totals ownPairs elements + totals (taken .roots) (foldRoots elements) ≤
      totals ownPairs (foldRoots elements) + totals (taken .roots) elements := by
  induction elements with
  | nil => exact Nat.le_refl _
  | cons element elements ih =>
    have step : foldRoots (element :: elements) = rootStep element (foldRoots elements) := rfl
    rw [step]
    rcases rootStep_cases element (foldRoots elements) with
      ⟨index, first, rest, radical, done, folded⟩ | folded
    · have balance := radical?_balance radical
      have unwrapped (weigh : Tree → Nat)
          (bare : ∀ left right contents, weigh (.bracketed left right contents) = 0)
          (node : weigh (.root first.unwrap index) = 0) :
          (Tree.root first.unwrap index).total weigh =
            first.total weigh + totals weigh index.toList := by
        rw [total_eq, node, children, totals_cons, total_unwrap bare, Nat.zero_add]
      rw [done] at ih
      rw [folded]
      simp only [totals_cons, unwrapped ownPairs (fun _ _ _ => rfl) rfl,
        unwrapped (taken .roots) (fun _ _ _ => rfl) rfl] at ih ⊢
      omega
    · rw [folded]
      simp only [totals_cons]
      omega

theorem total_side (elements : List Tree) :
    (side elements).total ownPairs = pairs elements + totals ownPairs elements := by
  match elements with
  | [] => exact total_eq ..
  | [only] =>
    have single : side [only] = only.unwrap := rfl
    rw [single, total_unwrap fun _ _ _ => rfl]
    simp [pairs, opensPair]
  | first :: second :: rest => exact total_eq ..

theorem cutAtBar?_eq_some {elements before behind : List Tree}
    (found : cutAtBar? elements = some (before, behind)) :
    ∃ bar, bar.isOperator Glyph.fractionBar = true ∧ elements = before ++ bar :: behind := by
  unfold cutAtBar? at found
  split at found
  · cases found
  · rename_i first rest
    split at found
    · rename_i bar next behind' cut
      cases found
      obtain ⟨operator, whole⟩ := eq_append_of_cut cut
      exact ⟨bar, operator, by rw [List.cons_append, ← whole]⟩
    · cases found

theorem foldFraction_balance (elements : List Tree) :
    pairs elements + totals ownPairs elements =
      pairs (foldFraction elements) + totals ownPairs (foldFraction elements) := by
  unfold foldFraction
  split
  · rename_i before behind found
    obtain ⟨bar, operator, rfl⟩ := cutAtBar?_eq_some found
    have fraction : (Tree.fraction (side before) (side behind)).total ownPairs =
        (side before).total ownPairs + (side behind).total ownPairs := by
      rw [total_inner ownPairs_sequential rfl]
      simp [children]
    have single : pairs [.fraction (side before) (side behind)] = 0 := rfl
    rw [eq_operator_of_isOperator operator, pairs_append_cons rfl (by decide), totals_append,
      totals_cons, total_operator ownPairs_sequential, single, totals_cons, totals_nil, fraction,
      total_side, total_side]
    omega
  · rfl

theorem accounts_visit {pass : Pass} (noBraces : pass ≠ .braces) (tree : Tree) :
    Accounts pass tree (pass.visit tree) := by
  have own := ownPairs_sequential
  cases pass with
  | invisibleProduct =>
    simp only [Pass.visit, invisibleProduct]
    split
    · exact accounts_cluster (Nat.le_trans (pairs_filter _) (Nat.le_add_right _ _))
        (totals_filter own _ _) (totals_filter (taken_sequential .invisibleProduct (by decide)) _ _)
    · exact accounts_refl _ _
  | subscripts =>
    simp only [Pass.visit, subscripts]
    split
    · rename_i elements
      have light := taken_sequential .subscripts (by decide)
      have spared := subscriptRule.spares_fold subscriptRule_spared elements []
      refine accounts_cluster (Nat.le_trans spared (Nat.add_le_add_right
        (pairs_implicitSubscripts _) _)) ?_ ?_
      · rw [totals_implicitSubscripts own, totals_fold own (subscriptRule_weighs own)]
      · rw [totals_implicitSubscripts light, totals_fold light (subscriptRule_weighs light)]
    · exact accounts_refl _ _
  | exponents =>
    simp only [Pass.visit, exponents]
    split
    · have light := taken_sequential .exponents (by decide)
      exact accounts_cluster (ScriptRule.spares_fold exponentRule_spared _ [])
        (totals_fold own (exponentRule_weighs own) _)
        (totals_fold light (exponentRule_weighs light) _)
    · exact accounts_refl _ _
  | ranges =>
    simp only [Pass.visit, ranges]
    split
    · exact accounts_cluster (spares_foldRanges _ _ [])
        (totals_foldRanges own cuttable_ownPairs _ _)
        (totals_foldRanges (taken_sequential .ranges (by decide)) cuttable_taken_ranges _ _)
    · exact accounts_refl _ _
  | roots =>
    simp only [Pass.visit, roots]
    split
    · exact accounts_elements rfl rfl ((spares_foldRoots _).1 []) (foldRoots_balance _)
    · exact accounts_elements rfl rfl ((spares_foldRoots _).1 []) (foldRoots_balance _)
    · exact accounts_refl _ _
  | fractions =>
    refine accounts_of_le (fun _ => rfl) (Nat.le_of_eq ?_)
    simp only [Pass.visit, fractions]
    split
    · rw [pairCount_row, pairCount_row, foldFraction_balance]
    · rw [pairCount_cluster, pairCount_cluster, foldFraction_balance]
    · rfl
  | operatorMeaning =>
    refine accounts_of_le (fun _ => rfl) (Nat.le_of_eq ?_)
    simp only [Pass.visit, operatorMeaning]
    split
    · rw [pairCount, pairCount, total_operator own, total_operator own]
    · rw [pairCount_cluster, pairCount_cluster, totals_cons, totals_cons, total_operator own,
        total_operator own]
      split
      · rename_i symbol _ factorial
        rw [factorial, pairs_cons_of_unsigned (by decide), pairs_cons_of_unsigned (by decide)]
      · rfl
    · rfl
  | operatorSuperscripts =>
    simp only [Pass.visit, operatorSuperscripts]
    split
    · exact accounts_cluster (spares_foldMarks _ 0 _ [] (.inl rfl)) (totals_foldMarks own _ _ _)
        (totals_foldMarks (taken_sequential .operatorSuperscripts (by decide)) _ _ _)
    · exact accounts_refl _ _
  | braces => exact absurd rfl noBraces

theorem pairCount_collapse (tree : Tree) : pairCount tree.collapse = pairCount tree := by
  unfold collapse
  split
  · rw [pairCount_row, totals_cons, totals_nil, Nat.add_zero]
    exact (Nat.zero_add _).symm
  · rw [pairCount_cluster, totals_cons, totals_nil, Nat.add_zero]
    exact (Nat.zero_add _).symm
  · rfl

theorem totals_children_collapse_le (weigh : Tree → Nat) (tree : Tree) :
    totals weigh tree.collapse.children ≤ totals weigh tree.children := by
  unfold collapse
  split
  · rename_i only
    simp [children, total_eq weigh only]
  · rename_i only
    simp [children, total_eq weigh only]
  · exact Nat.le_refl _

theorem isPair_apply (pass : Pass) {sign group : Tree} (pair : isPair sign group = true) :
    isPair (pass.apply sign) (pass.apply group) = true := by
  obtain ⟨signed, right, first, second, rfl⟩ := isPair_iff.mp pair
  refine isPair_iff.mpr ⟨?_, right, first.map pass.apply, second.map pass.apply, ?_⟩
  · cases sign with
    | operator symbol =>
      rw [Pass.apply_eq]
      cases pass with
      | operatorMeaning =>
        have kept : leftover symbol = symbol := by
          simp only [braceSide?] at signed
          split at signed
          · rename_i above
            rw [above]
            decide
          · split at signed
            · rename_i below
              rw [below]
              decide
            · cases signed
        change (braceSide? (.operator (leftover symbol))).isSome = true
        rwa [kept]
      | _ => exact signed
    | _ => cases signed
  · have grid : pass.apply (.grid [first, second]) =
        .grid [first.map pass.apply, second.map pass.apply] := by
      rw [Pass.apply_eq]
      cases pass <;> rfl
    rw [← grid, Pass.apply_eq]
    cases pass <;> rfl

theorem pairs_map_apply (pass : Pass) (elements : List Tree) :
    pairs elements ≤ pairs (elements.map pass.apply) := by
  induction elements with
  | nil => exact Nat.le_refl _
  | cons element elements ih =>
    refine pairs_cons_le_cons ih fun opens => ?_
    cases elements with
    | nil => cases opens
    | cons group rest => exact isPair_apply pass opens

theorem ownPairs_mapChildren_apply (pass : Pass) (tree : Tree) :
    ownPairs tree ≤ ownPairs (tree.mapChildren pass.apply) := by
  cases tree with
  | row elements | cluster elements => exact pairs_map_apply pass elements
  | _ => exact Nat.zero_le _

theorem pairCount_apply {pass : Pass} (noBraces : pass ≠ .braces) (tree : Tree) :
    pairCount tree ≤ pairCount (pass.apply tree) + tree.total (taken pass) := by
  induction tree using pass.induct with
  | step tree ih =>
    have inside := totals_le ih
    have here := ownPairs_mapChildren_apply pass (pass.visit tree).collapse
    have whole := total_eq ownPairs (pass.visit tree).collapse
    have visited := accounts_visit noBraces tree
    have left := totals_children_collapse_le (taken pass) (pass.visit tree)
    have collapsed := pairCount_collapse (pass.visit tree)
    have applied : pairCount (pass.apply tree) = _ := total_eq ownPairs (pass.apply tree)
    rw [pass.apply_eq, children_mapChildren] at applied
    unfold Accounts at visited
    unfold pairCount at *
    rw [pass.apply_eq]
    omega

theorem pairCount_foldl_apply (passes : List Pass) (noBraces : .braces ∉ passes) (tree : Tree) :
    pairCount tree ≤ pairCount (passes.foldl (fun folded pass => pass.apply folded) tree) +
      lostPairs passes tree := by
  induction passes generalizing tree with
  | nil => exact Nat.le_refl _
  | cons pass passes ih =>
    rw [List.mem_cons, not_or] at noBraces
    have first := pairCount_apply (Ne.symm noBraces.1) tree
    have rest := ih noBraces.2 (pass.apply tree)
    simp only [List.foldl_cons, lostPairs]
    omega

theorem lostPairs_append (first second : List Pass) (tree : Tree) :
    lostPairs (first ++ second) tree = lostPairs first tree +
      lostPairs second (first.foldl (fun folded pass => pass.apply folded) tree) := by
  induction first generalizing tree with
  | nil => simp [lostPairs]
  | cons pass first ih => simp [lostPairs, ih, Nat.add_assoc]

def pairOrBrace (tree : Tree) : Nat := ownPairs tree + (isBrace tree).toNat

theorem pairOrBrace_bare {tree : Tree} (inner : tree.elements? = none)
    (noBrace : isBrace tree = false) :
    tree.total pairOrBrace = totals pairOrBrace tree.children := by
  rw [total_eq, pairOrBrace, ownPairs_sequential tree inner, noBrace]
  simp

theorem totals_sideBySide_le (weigh : Tree → Nat) (cells : List Tree) :
    totals weigh cells ≤ (sideBySide cells).total weigh := by
  unfold sideBySide
  split
  · simp
  · rw [total_eq]
    exact Nat.le_add_left _ _

theorem braceStep_cases (element : Tree) (done : List Tree) :
    (∃ side comment base bracket rest, done = bracket :: rest ∧
      twoRows? bracket = some (comment, base) ∧ braceSide? element = some side ∧
        braceStep element done = .brace side (sideBySide base) (sideBySide comment) :: rest) ∨
      braceStep element done = element :: done ∧ opensPair element done = false := by
  unfold braceStep
  split
  · rename_i side bracket rest sign
    split
    · rename_i comment base found
      exact .inl ⟨side, comment, base, bracket, rest, rfl, found, sign, rfl⟩
    · rename_i unpaired
      exact .inr ⟨rfl, by simp [opensPair, isPair, unpaired]⟩
  · rename_i other
    refine .inr ⟨rfl, Bool.eq_false_iff.mpr fun opens => ?_⟩
    obtain ⟨sign, right, first, second, behind, rfl⟩ := opensPair_iff.mp opens
    obtain ⟨side, sign⟩ := Option.isSome_iff_exists.mp sign
    exact other side _ _ sign rfl

theorem total_twoRows? {tree : Tree} {comment base : List Tree}
    (found : twoRows? tree = some (comment, base)) :
    tree.total pairOrBrace = totals pairOrBrace comment + totals pairOrBrace base := by
  unfold twoRows? at found
  split at found
  · cases found
    rw [pairOrBrace_bare rfl rfl, children, Option.toList_some, totals_cons, totals_nil,
      pairOrBrace_bare rfl rfl]
    simp [children]
  · cases found

theorem foldBraces_gains (elements : List Tree) :
    pairs elements + totals pairOrBrace elements ≤ totals pairOrBrace (foldBraces elements) := by
  induction elements with
  | nil => exact Nat.le_refl _
  | cons element elements ih =>
    have step : foldBraces (element :: elements) = braceStep element (foldBraces elements) := rfl
    rw [step]
    rcases braceStep_cases element (foldBraces elements) with
      ⟨side, comment, base, bracket, rest, done, rows, sign, folded⟩ | ⟨folded, apart⟩
    · have operator : element.total pairOrBrace = 0 := by
        cases element with
        | operator symbol => exact pairOrBrace_bare rfl rfl
        | _ => cases sign
      have brace := total_eq pairOrBrace (.brace side (sideBySide base) (sideBySide comment))
      have weight : pairOrBrace (.brace side (sideBySide base) (sideBySide comment)) = 1 := rfl
      have one := Bool.toNat_le (opensPair element elements)
      have below := totals_sideBySide_le pairOrBrace base
      have label := totals_sideBySide_le pairOrBrace comment
      have inside := total_twoRows? rows
      rw [done] at ih
      simp only [children, totals_cons, totals_nil] at brace ih
      rw [folded, totals_cons, totals_cons, pairs, operator]
      omega
    · have apart : opensPair element elements = false := by
        refine Bool.eq_false_iff.mpr fun opens => Bool.eq_false_iff.mp apart ?_
        refine opensPair_of_kept opens ?_
        rintro left right contents behind rfl
        exact ⟨_, rfl⟩
      rw [folded, pairs, apart, totals_cons, totals_cons]
      simp only [Bool.toNat_false]
      omega

theorem foldBraces_eq_singleton {elements : List Tree} {only : Tree}
    (folded : foldBraces elements = [only]) : elements.length = 1 ∨ ownPairs only = 0 := by
  cases elements with
  | nil => cases folded
  | cons element elements =>
    change braceStep element (foldBraces elements) = _ at folded
    rcases braceStep_cases element (foldBraces elements) with
      ⟨side, comment, base, bracket, rest, _, _, _, made⟩ | ⟨kept, _⟩
    · rw [made] at folded
      cases folded
      exact .inr rfl
    · rw [kept, List.cons.injEq] at folded
      refine .inl ?_
      by_cases more : elements = []
      · rw [more]
        rfl
      · exact absurd folded.2 (foldBraces_ne_nil more)

theorem totals_le_collapse {tree : Tree} {elements : List Tree}
    (inside : tree.elements? = some elements)
    (single : ∀ only, elements = [only] → ownPairs only = 0) :
    totals pairOrBrace elements ≤
      (isBrace tree.collapse).toNat + totals pairOrBrace tree.collapse.children := by
  unfold collapse
  split
  · cases inside
    rw [totals_cons, totals_nil, total_eq, pairOrBrace, single _ rfl]
    omega
  · cases inside
    rw [totals_cons, totals_nil, total_eq, pairOrBrace, single _ rfl]
    omega
  · cases tree with
    | row _ | cluster _ =>
      cases inside
      exact Nat.le_add_left _ _
    | _ => cases inside

theorem braces_gains {tree : Tree} (sized : tree.Sized) :
    tree.total pairOrBrace ≤ (isBrace (braces tree).collapse).toNat +
      totals pairOrBrace (braces tree).collapse.children := by
  have gains {elements : List Tree} {folded : Tree} (several : elements.length ≠ 1)
      (inside : folded.elements? = some (foldBraces elements)) :
      pairs elements + totals pairOrBrace elements ≤
        (isBrace folded.collapse).toNat + totals pairOrBrace folded.collapse.children :=
    Nat.le_trans (foldBraces_gains elements) <| totals_le_collapse inside fun only single =>
      (foldBraces_eq_singleton single).resolve_left several
  cases tree with
  | row elements =>
    rw [total_eq]
    exact gains sized rfl
  | cluster elements =>
    rw [total_eq]
    exact gains (Nat.ne_of_gt sized) rfl
  | _ =>
    rw [total_eq, pairOrBrace, ownPairs_sequential _ rfl, Nat.zero_add]
    exact Nat.le_refl _

theorem total_le_braceCount_apply {tree : Tree} (built : Built Filled tree) :
    tree.total pairOrBrace ≤ braceCount (Pass.braces.apply tree) := by
  induction tree using Pass.braces.induct with
  | step tree ih =>
    have other : Pass.braces ≠ .invisibleProduct := by decide
    have visited := built_collapse_visit filled_foldable other built
    -- an empty slot has no pairs
    have below (child : Tree) (member : child ∈ (Pass.braces.visit tree).collapse.children) :
        child.total pairOrBrace ≤
          braceCount (Pass.braces.apply child) + child.total (taken .braces) := by
      refine Nat.le_trans ?_ (Nat.le_add_right _ _)
      rcases mem_children.mp member with part | slot
      · exact ih child member (visited.part child part)
      · by_cases nothing : child = emptyRow
        · rw [nothing, total_eq]
          exact Nat.zero_le _
        · exact ih child member (visited.slot child slot nothing)
    have inside := totals_le below
    have nothing (tree : Tree) : taken .braces tree = 0 := rfl
    rw [totals_eq_zero nothing, Nat.add_zero] at inside
    have gained := braces_gains built.here.sized
    have applied : braceCount (Pass.braces.apply tree) = _ := total_eq _ (Pass.braces.apply tree)
    have same : isBrace ((Pass.braces.visit tree).collapse.mapChildren Pass.braces.apply) =
        isBrace (Pass.braces.visit tree).collapse := by
      cases (Pass.braces.visit tree).collapse <;> rfl
    rw [Pass.apply_eq, children_mapChildren, same] at applied
    rw [Pass.apply_eq, applied]
    exact Nat.le_trans gained (Nat.add_le_add_left inside _)

theorem pairCount_le_total (tree : Tree) : pairCount tree ≤ tree.total pairOrBrace := by
  unfold pairCount total
  induction tree.nodes with
  | nil => exact Nat.le_refl _
  | cons node nodes ih =>
    simp only [List.map_cons, List.sum_cons, pairOrBrace] at ih ⊢
    omega

/-- Every pair that is read becomes a brace, unless a pass takes it apart: a script sign takes its
operator or its bracket, a square bracket bounds its bracket, a radical takes its operator or drops
it with an upper bound, or a mark is raised on its bracket. -/
theorem pairCount_le_braceCount_add_lost (source : String) :
    pairCount (parse source) ≤
      braceCount (parse source).layout + lostPairs Pass.all (parse source) := by
  rcases parse_builds (builds_raw filled_foldable filled_readable) source with empty | built
  · rw [empty, pairCount, total_eq]
    exact Nat.zero_le _
  · have others : Pass.invisibleProduct ∉ Pass.all.dropLast.tail := by decide
    have folded : Built Filled (Pass.all.dropLast.foldl (fun folded pass => pass.apply folded)
        (parse source)) :=
      built_foldl_apply filled_foldable others (built_invisibleProduct filled_foldable built)
    have spared := pairCount_foldl_apply Pass.all.dropLast (by decide) (parse source)
    have counted := pairCount_le_total (Pass.all.dropLast.foldl
      (fun folded pass => pass.apply folded) (parse source))
    have braced := total_le_braceCount_apply folded
    have earlier : Pass.all = Pass.all.dropLast ++ [.braces] := rfl
    have last : (parse source).layout = Pass.braces.apply (Pass.all.dropLast.foldl
      (fun folded pass => pass.apply folded) (parse source)) := rfl
    rw [earlier, lostPairs_append, last]
    omega

theorem raised_pair_unbraced : pairCount (parse "underbrace(n;x)^2") = 1 ∧
    braceCount (parse "underbrace(n;x)^2").layout = 0 := by
  decide +kernel

example : lostPairs Pass.all (parse "a underbrace(n;x) + b^2") = 0 := by decide +kernel

end PlainMath.Layout
