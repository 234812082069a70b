import PlainMath.Layout.Pass
import PlainMath.Proofs.Grammar.Steps
import PlainMath.Proofs.Tree.Built

/-! A brace operator and the two-row bracket behind it are a pair, which the last pass makes a
labelled brace. The folds in front of it may take one of the two for themselves. What they take
is counted here, and a fold loses no other pair. -/
namespace PlainMath.Layout
open PlainMath.Tree

/-- A brace operator, and a round bracket that holds a grid of two rows. -/
def isPair (sign group : Tree) : Bool :=
  (braceSide? sign).isSome && group.leftDelimiter? == some "(" && (twoRows? group).isSome

def opensPair (sign : Tree) (rest : List Tree) : Bool := rest.head?.any (isPair sign)

def pairs : List Tree → Nat
  | [] => 0
  | sign :: rest => (opensPair sign rest).toNat + pairs rest

/-- How many pairs there are with such elements before them, the nearest first, and such elements
behind them. -/
def pairsWhere (test : List Tree → List Tree → Bool) (before : List Tree) : List Tree → Nat
  | [] => 0
  | sign :: rest =>
    (opensPair sign rest && test before rest.tail).toNat + pairsWhere test (sign :: before) rest

theorem isPair_iff {sign group : Tree} : isPair sign group = true ↔
    (braceSide? sign).isSome = true ∧
      ∃ right first second, group = .bracketed "(" right (some (.grid [first, second])) := by
  constructor
  · intro pair
    simp only [isPair, Bool.and_eq_true, beq_iff_eq] at pair
    obtain ⟨⟨sign, round⟩, rows⟩ := pair
    refine ⟨sign, ?_⟩
    unfold twoRows? at rows
    split at rows
    · cases round
      exact ⟨_, _, _, rfl⟩
    · cases rows
  · rintro ⟨sign, right, first, second, rfl⟩
    simp [isPair, sign, leftDelimiter?, twoRows?]

theorem opensPair_iff {sign : Tree} {rest : List Tree} : opensPair sign rest = true ↔
    (braceSide? sign).isSome = true ∧ ∃ right first second behind,
      rest = .bracketed "(" right (some (.grid [first, second])) :: behind := by
  cases rest with
  | nil => simp [opensPair]
  | cons group behind => simp [opensPair, isPair_iff]

theorem opensPair_of_kept {sign : Tree} {rest folded : List Tree}
    (opens : opensPair sign rest = true)
    (kept : ∀ {left right contents behind}, rest = .bracketed left right contents :: behind →
      ∃ more, folded = .bracketed left right contents :: more) :
    opensPair sign folded = true := by
  obtain ⟨signed, right, first, second, behind, here⟩ := opensPair_iff.mp opens
  exact opensPair_iff.mpr ⟨signed, right, first, second, kept here⟩

theorem braceSide?_of_isOperand {tree : Tree} (operand : tree.isOperand = true) :
    braceSide? tree = none := by
  cases tree with
  | operator symbol => cases operand
  | _ => rfl

theorem opensPair_of_unsigned {sign : Tree} (unsigned : braceSide? sign = none) (rest : List Tree) :
    opensPair sign rest = false := by
  rw [Bool.eq_false_iff, Ne, opensPair_iff, unsigned]
  simp

theorem pairs_cons_of_unsigned {sign : Tree} (unsigned : braceSide? sign = none)
    (rest : List Tree) : pairs (sign :: rest) = pairs rest := by
  simp [pairs, opensPair_of_unsigned unsigned]

theorem pairsWhere_cons_of_unsigned {sign : Tree} (unsigned : braceSide? sign = none)
    (test : List Tree → List Tree → Bool) (before rest : List Tree) :
    pairsWhere test before (sign :: rest) = pairsWhere test (sign :: before) rest := by
  simp [pairsWhere, opensPair_of_unsigned unsigned]

theorem pairs_append_cons {cut : Tree} (operator : cut.isOperand = false)
    (unsigned : braceSide? cut = none) (before behind : List Tree) :
    pairs (before ++ cut :: behind) = pairs before + pairs behind := by
  induction before with
  | nil =>
    rw [List.nil_append, pairs_cons_of_unsigned unsigned]
    simp [pairs]
  | cons sign before ih =>
    have same : opensPair sign (before ++ cut :: behind) = opensPair sign before := by
      cases before with
      | nil =>
        rw [List.nil_append]
        refine Bool.eq_false_iff.mpr fun opens => ?_
        obtain ⟨_, _, _, _, _, whole⟩ := opensPair_iff.mp opens
        cases whole
        cases operator
      | cons next before => rfl
    rw [List.cons_append, pairs, pairs, ih, same, Nat.add_assoc]

theorem pairs_cons_le_cons {sign sign' : Tree} {rest folded : List Tree}
    (inside : pairs rest ≤ pairs folded)
    (kept : opensPair sign rest = true → opensPair sign' folded = true) :
    pairs (sign :: rest) ≤ pairs (sign' :: folded) := by
  simp only [pairs]
  cases opens : opensPair sign rest with
  | false =>
    simp only [Bool.toNat_false]
    omega
  | true =>
    rw [kept opens]
    omega

section
variable {test : List Tree → List Tree → Bool}

theorem pairs_cons_le {sign : Tree} {rest folded before : List Tree}
    (inside : pairs rest ≤ pairs folded + pairsWhere test (sign :: before) rest)
    (kept : opensPair sign rest = true → test before rest.tail = false →
      opensPair sign folded = true) :
    pairs (sign :: rest) ≤ pairs (sign :: folded) + pairsWhere test before (sign :: rest) := by
  simp only [pairs, pairsWhere]
  cases opens : opensPair sign rest with
  | false =>
    simp only [Bool.toNat_false, Bool.false_and]
    omega
  | true =>
    cases taken : test before rest.tail with
    | false =>
      simp only [kept opens taken, Bool.and_false, Bool.toNat_true, Bool.toNat_false]
      omega
    | true =>
      simp only [Bool.and_true, Bool.toNat_true]
      omega

def Spares (test : List Tree → List Tree → Bool) (fold : List Tree → List Tree)
    (elements : List Tree) : Prop :=
  ∀ before, pairs elements ≤ pairs (fold elements) + pairsWhere test before elements

/-- No pair is lost but those that the test finds, even if the first element of the outcome is
taken, where the test finds any pair at that place. -/
def SparesRest (test : List Tree → List Tree → Bool) (fold : List Tree → List Tree)
    (elements : List Tree) : Prop :=
  ∀ before, (∀ behind, test before behind = true) → ∀ {first rest},
    fold elements = first :: rest → pairs elements ≤ pairs rest + pairsWhere test before elements

theorem sparesRest_cons {fold : List Tree → List Tree} {element : Tree} {elements : List Tree}
    (whole : Spares test fold (element :: elements)) (inner : Spares test fold elements)
    (kept : ∀ {first rest}, fold (element :: elements) = first :: rest →
      braceSide? first = none ∨ first = element ∧ rest = fold elements) :
    SparesRest test fold (element :: elements) := by
  intro before taken first rest found
  rcases kept found with unsigned | ⟨rfl, rfl⟩
  · have bound := whole before
    rwa [found, pairs_cons_of_unsigned unsigned] at bound
  · have bound := inner (first :: before)
    simp only [pairs, pairsWhere, taken, Bool.and_true]
    omega

end

def underRadical (before _behind : List Tree) : Bool :=
  before.head?.any fun element => (radical? element).isSome

theorem braceSide?_of_radical {tree : Tree} {index : Option Tree}
    (found : radical? tree = some index) : braceSide? tree = none := by
  unfold radical? at found
  split at found
  · split at found
    · rename_i radical
      rw [radical]
      decide
    · cases found
  · rfl
  · cases found

theorem rootStep_cases (element : Tree) (done : List Tree) :
    (∃ index first rest, radical? element = some index ∧ done = first :: rest ∧
      rootStep element done = .root first.unwrap index :: rest) ∨
        rootStep element done = element :: done := by
  unfold rootStep
  split
  · rename_i index first rest radical
    exact .inl ⟨index, first, rest, radical, rfl, rfl⟩
  · exact .inr rfl

theorem spares_foldRoots (elements : List Tree) :
    Spares underRadical foldRoots elements ∧ SparesRest underRadical foldRoots elements := by
  induction elements with
  | nil => exact ⟨fun _ => Nat.zero_le _, fun _ _ _ _ _ => Nat.zero_le _⟩
  | cons element elements ih =>
    have step : foldRoots (element :: elements) = rootStep element (foldRoots elements) := rfl
    have spares : Spares underRadical foldRoots (element :: elements) := by
      intro before
      rw [step]
      rcases rootStep_cases element (foldRoots elements) with
        ⟨index, first, rest, radical, done, folded⟩ | folded
      · have bound := ih.2 (element :: before) (fun _ => by simp [underRadical, radical]) done
        rw [folded, pairs_cons_of_unsigned (braceSide?_of_radical radical),
          pairs_cons_of_unsigned rfl, pairsWhere]
        omega
      · rw [folded]
        refine pairs_cons_le (ih.1 _) fun opens _ => opensPair_of_kept opens ?_
        rintro left right contents behind rfl
        exact ⟨_, rfl⟩
    refine ⟨spares, sparesRest_cons spares ih.1 ?_⟩
    intro first rest found
    rw [step] at found
    rcases rootStep_cases element (foldRoots elements) with
      ⟨index, radicand, behind, _, _, folded⟩ | folded
    · rw [folded] at found
      cases found
      exact .inl rfl
    · rw [folded] at found
      cases found
      exact .inr ⟨rfl, rfl⟩

namespace ScriptRule
variable {rule : ScriptRule} {element : Tree} {elements : List Tree}

def scan (rule : ScriptRule) (elements : List Tree) : Scan := elements.foldr rule.step ⟨none, []⟩

theorem scan_cons (rule : ScriptRule) (element : Tree) (elements : List Tree) :
    (∃ script done, rule.scan elements = ⟨some script, done⟩ ∧ element.isOperand = true ∧
      rule.scan (element :: elements) = ⟨none, rule.attach element script :: done⟩) ∨
      rule.scan (element :: elements) = rule.enter element (rule.fold elements) := by
  change (∃ script done, rule.scan elements = ⟨some script, done⟩ ∧ element.isOperand = true ∧
    rule.step element (rule.scan elements) = _) ∨
      rule.step element (rule.scan elements) = rule.enter element (rule.close (rule.scan elements))
  obtain ⟨waiting, done⟩ := rule.scan elements
  cases waiting with
  | none => exact .inr rfl
  | some script =>
    by_cases operand : element.isOperand = true
    · exact .inl ⟨script, done, rfl, operand, by simp [step, operand]⟩
    · exact .inr (by simp [step, close, operand])

theorem eq_sign_cons_of_waiting {script : Tree} {done : List Tree}
    (waits : rule.scan elements = ⟨some script, done⟩) :
    ∃ sign behind, elements = sign :: behind ∧ sign.isOperator rule.sign = true ∧
      rule.fold behind = script :: done := by
  cases elements with
  | nil => cases waits
  | cons element elements =>
    rcases scan_cons rule element elements with ⟨_, _, _, _, taken⟩ | entered
    · rw [taken] at waits
      cases waits
    · rw [entered] at waits
      unfold enter at waits
      split at waits
      · rename_i found
        split at waits
        · cases waits
        · rename_i folded
          cases waits
          exact ⟨element, elements, rfl, found, folded⟩
      · cases waits

/-- What the fold does with the first element: a sign takes the element behind it, an operand in
front of a sign is its base, and everything else stays. -/
inductive Folded (rule : ScriptRule) (element : Tree) (elements : List Tree) : List Tree → Prop
  | last (sign : element.isOperator rule.sign = true) (empty : rule.fold elements = []) :
      Folded rule element elements [element]
  | detached {script done} (sign : element.isOperator rule.sign = true)
      (folded : rule.fold elements = script :: done) :
      Folded rule element elements (rule.detached script ++ done)
  | attached {sign behind script done} (operand : element.isOperand = true)
      (here : elements = sign :: behind) (found : sign.isOperator rule.sign = true)
      (folded : rule.fold behind = script :: done) :
      Folded rule element elements (rule.attach element script :: done)
  | kept : Folded rule element elements (element :: rule.fold elements)

theorem folded_cons (rule : ScriptRule) (element : Tree) (elements : List Tree) :
    Folded rule element elements (rule.fold (element :: elements)) := by
  change Folded rule element elements (rule.close (rule.scan (element :: elements)))
  rcases scan_cons rule element elements with ⟨script, done, waits, operand, taken⟩ | entered
  · obtain ⟨sign, behind, here, found, folded⟩ := eq_sign_cons_of_waiting waits
    rw [taken]
    exact .attached operand here found folded
  · rw [entered]
    unfold enter
    split
    · rename_i sign
      split
      · rename_i empty
        exact .last sign empty
      · rename_i folded
        exact .detached sign folded
    · exact .kept

/-- The rule makes no brace operator, and the test finds each pair that a sign takes apart: the
operator behind a sign that has a base or makes up one, and the bracket in front of a sign. -/
structure Spared (rule : ScriptRule) (test : List Tree → List Tree → Bool) : Prop where
  sign : ∀ {sign}, sign.isOperator rule.sign = true → braceSide? sign = none
  attach : ∀ base script, braceSide? (rule.attach base script) = none
  detached : ∀ script done, ∃ first rest, rule.detached script ++ done = first :: rest ∧
    braceSide? first = none
  script : ∀ script done, pairs (script :: done) ≤ pairs (rule.detached script ++ done) ∨
    pairs done ≤ pairs (rule.detached script ++ done) ∧
      ∀ {sign before behind}, sign.isOperator rule.sign = true → test (sign :: before) behind = true
  attached : ∀ {sign base before behind}, sign.isOperator rule.sign = true →
    base.isOperand = true → test (sign :: base :: before) behind = true
  base : ∀ {sign before script behind}, sign.isOperator rule.sign = true →
    test before (sign :: script :: behind) = true

theorem fold_bracketed {left right : String} {contents : Option Tree}
    (alone : ∀ sign script more, sign.isOperator rule.sign = true →
      elements ≠ sign :: script :: more) :
    rule.fold (.bracketed left right contents :: elements) =
      .bracketed left right contents :: rule.fold elements := by
  have folded := folded_cons rule (.bracketed left right contents) elements
  generalize rule.fold (.bracketed left right contents :: elements) = outcome at folded
  cases folded with
  | last sign => cases sign
  | detached sign => cases sign
  | @attached sign behind script done _ here found folded =>
    subst here
    cases behind with
    | nil => cases folded
    | cons first behind => exact absurd rfl (alone sign first behind found)
  | kept => rfl

theorem fold_cases {test : List Tree → List Tree → Bool} (spared : rule.Spared test)
    {first : Tree} {rest : List Tree} (outcome : rule.fold (element :: elements) = first :: rest) :
    braceSide? first = none ∨ first = element ∧ rest = rule.fold elements := by
  have folded := folded_cons rule element elements
  rw [outcome] at folded
  generalize same : first :: rest = whole at folded
  cases folded with
  | last sign =>
    cases same
    exact .inl (spared.sign sign)
  | @detached script done sign folded =>
    obtain ⟨head, tail, start, unsigned⟩ := spared.detached script done
    rw [start] at same
    cases same
    exact .inl unsigned
  | attached =>
    cases same
    exact .inl (spared.attach _ _)
  | kept =>
    cases same
    exact .inr ⟨rfl, rfl⟩

theorem spares_fold_cons {test : List Tree → List Tree → Bool} (spared : rule.Spared test)
    (inner : Spares test rule.fold elements) (innerRest : SparesRest test rule.fold elements)
    (tailRest : SparesRest test rule.fold elements.tail) :
    Spares test rule.fold (element :: elements) := by
  intro before
  have bound := inner (element :: before)
  have folded := folded_cons rule element elements
  generalize rule.fold (element :: elements) = outcome at folded
  cases folded with
  | last sign empty =>
    rw [empty] at bound
    rw [pairs_cons_of_unsigned (spared.sign sign), pairs_cons_of_unsigned (spared.sign sign),
      pairsWhere]
    omega
  | @detached script done sign folded =>
    rw [pairs_cons_of_unsigned (spared.sign sign), pairsWhere]
    rcases spared.script script done with kept | ⟨lost, taken⟩
    · rw [folded] at bound
      omega
    · have bound := innerRest (element :: before) (fun _ => taken sign) folded
      omega
  | @attached sign behind script done operand here found folded =>
    subst here
    have bound := tailRest (sign :: element :: before)
      (fun _ => spared.attached found operand) folded
    rw [pairs_cons_of_unsigned (braceSide?_of_isOperand operand),
      pairs_cons_of_unsigned (spared.sign found), pairs_cons_of_unsigned (spared.attach _ _),
      pairsWhere, pairsWhere]
    rw [List.tail_cons] at bound
    omega
  | kept =>
    refine pairs_cons_le bound fun opens alone => opensPair_of_kept opens ?_
    rintro left right contents behind rfl
    refine ⟨_, fold_bracketed fun sign script more found => ?_⟩
    rintro rfl
    rw [List.tail_cons, spared.base found] at alone
    cases alone

theorem spares_fold {test : List Tree → List Tree → Bool} (spared : rule.Spared test)
    (elements : List Tree) : Spares test rule.fold elements := by
  -- an operand in front of a sign looks two elements ahead
  suffices all : Spares test rule.fold elements ∧ SparesRest test rule.fold elements ∧
      SparesRest test rule.fold elements.tail from all.1
  induction elements with
  | nil =>
    have ended : SparesRest test rule.fold [] := fun _ _ _ _ _ => Nat.zero_le _
    exact ⟨fun _ => Nat.zero_le _, ended, ended⟩
  | cons element elements ih =>
    obtain ⟨inner, innerRest, tailRest⟩ := ih
    have whole : Spares test rule.fold (element :: elements) :=
      spares_fold_cons spared inner innerRest tailRest
    exact ⟨whole, sparesRest_cons whole inner (fold_cases spared), innerRest⟩

end ScriptRule

def hasScript (sign : String) : List Tree → Bool
  | element :: _ :: _ => element.isOperator sign
  | _ => false

def besideSubscript (before behind : List Tree) : Bool :=
  before.head?.any (·.isOperator Glyph.subscript) || hasScript Glyph.subscript behind

/-- A superscript sign in front of the pair takes its operator only if there is a base. -/
def besideSuperscript (before behind : List Tree) : Bool :=
  (match before with
    | sign :: base :: _ => sign.isOperator Glyph.superscript && base.isOperand
    | _ => false) || hasScript Glyph.superscript behind

theorem subscriptRule_spared : subscriptRule.Spared besideSubscript where
  sign found := by
    rw [Tree.eq_operator_of_isOperator found]
    decide
  attach _ _ := rfl
  detached _ done := ⟨_, done, rfl, rfl⟩
  script script done := by
    refine .inr ⟨?_, fun found => ?_⟩
    · exact Nat.le_of_eq (pairs_cons_of_unsigned rfl done).symm
    · simpa [besideSubscript] using .inl found
  attached found _ := by simpa [besideSubscript] using .inl found
  base found := by simpa [besideSubscript, hasScript] using .inr found

theorem exponentRule_spared : exponentRule.Spared besideSuperscript where
  sign found := by
    rw [Tree.eq_operator_of_isOperator found]
    decide
  attach base script := by
    simp only [exponentRule, raise]
    split <;> rfl
  detached script done := ⟨_, script :: done, rfl, by decide⟩
  script script done := by
    exact .inl (Nat.le_of_eq (pairs_cons_of_unsigned (by decide) (script :: done)).symm)
  attached found operand := by
    simpa [besideSuperscript, operand] using .inl found
  base found := by simpa [besideSuperscript, hasScript] using .inr found

theorem pairs_implicitSubscripts (elements : List Tree) :
    pairs elements ≤ pairs (implicitSubscripts elements) := by
  fun_induction implicitSubscripts elements with
  | case1 symbol numeral rest ih =>
    rwa [pairs_cons_of_unsigned rfl, pairs_cons_of_unsigned rfl, pairs_cons_of_unsigned rfl]
  | case2 element rest _ ih =>
    refine pairs_cons_le_cons ih fun opens => opensPair_of_kept opens ?_
    rintro left right contents behind rfl
    exact ⟨_, by rw [implicitSubscripts]; simp⟩
  | case3 => exact Nat.le_refl _

def beforeRange (_before behind : List Tree) : Bool :=
  behind.head?.any fun element => (rangeContents? element).isSome

/-- A prime behind the pair is raised on its bracket, and so is a mark that ends the cluster. -/
def beforeMark (_before : List Tree) : List Tree → Bool
  | [] => false
  | next :: rest =>
    next.isOperator Glyph.prime || rest.isEmpty && next.operator?.any Glyph.isFinalMark

theorem pairsWhere_congr {test : List Tree → List Tree → Bool}
    (blind : ∀ before before' behind, test before behind = test before' behind)
    (before before' elements : List Tree) :
    pairsWhere test before elements = pairsWhere test before' elements := by
  induction elements generalizing before before' with
  | nil => rfl
  | cons element elements ih =>
    rw [pairsWhere, pairsWhere, blind before before', ih (element :: before) (element :: before')]

theorem rangeContents?_eq_some {tree : Tree} {contents : Option Tree}
    (found : rangeContents? tree = some contents) :
    ∃ right, tree = .bracketed "[" right contents := by
  unfold rangeContents? at found
  split at found
  · split at found
    · rename_i square
      cases found
      exact ⟨_, by rw [square]⟩
    · cases found
  · cases found

theorem braceSide?_bound (target : Tree) (bounds : Tree × Option Tree) :
    braceSide? (bound target bounds) = none := by
  unfold bound
  split <;> rfl

theorem spares_foldRanges (target : Tree) (rest before : List Tree) :
    pairs (target :: rest) ≤
      pairs (foldRanges target rest) + pairsWhere beforeRange before (target :: rest) := by
  induction rest generalizing target before with
  | nil => exact Nat.zero_le _
  | cons next rest ih =>
    have kept : pairs (target :: next :: rest) ≤ pairs (target :: foldRanges next rest) +
        pairsWhere beforeRange before (target :: next :: rest) := by
      refine pairs_cons_le (ih next _) fun opens alone => opensPair_of_kept opens ?_
      rintro left right contents behind ⟨⟩
      cases rest with
      | nil => exact ⟨_, rfl⟩
      | cons last rest =>
        have other : rangeContents? last = none := by simpa [beforeRange] using alone
        exact ⟨_, by rw [foldRanges, other]⟩
    unfold foldRanges
    split
    · rename_i contents found
      split
      · -- the square bracket is in no pair, and neither is what it bounds
        obtain ⟨right, rfl⟩ := rangeContents?_eq_some found
        have apart : opensPair target (.bracketed "[" right contents :: rest) = false := by
          rw [Bool.eq_false_iff, Ne, opensPair_iff]
          simp
        have bound := ih (bound target (bounds contents)) (target :: before)
        rw [pairs_cons_of_unsigned (braceSide?_bound _ _),
          pairsWhere_cons_of_unsigned (braceSide?_bound _ _)] at bound
        rw [pairs, apart, pairs_cons_of_unsigned rfl, pairsWhere, apart,
          pairsWhere_cons_of_unsigned rfl, pairsWhere_congr (fun _ _ _ => rfl) _
            (Layout.bound target (bounds contents) :: target :: before)]
        simpa using bound
      · exact kept
    · exact kept

theorem foldMarks_bracketed {left right : String} {contents : Option Tree} {rest before : List Tree}
    (alone : beforeMark before rest = false) :
    ∃ behind, foldMarks (.bracketed left right contents) 0 rest =
      .bracketed left right contents :: behind := by
  cases rest with
  | nil => exact ⟨_, rfl⟩
  | cons next rest =>
    simp only [beforeMark, Bool.or_eq_false_iff] at alone
    exact ⟨foldMarks next 0 rest, by simp [foldMarks, isOperand, raisePrimes, alone]⟩

theorem spares_foldMarks (target : Tree) (count : Nat) (rest before : List Tree)
    (primed : count = 0 ∨ target.isOperand = true) :
    pairs (target :: rest) ≤
      pairs (foldMarks target count rest) + pairsWhere beforeMark before (target :: rest) := by
  induction rest generalizing target count before with
  | nil => exact Nat.zero_le _
  | cons next rest ih =>
    unfold foldMarks
    split
    · rename_i prime
      rw [Bool.and_eq_true] at prime
      have unsigned : braceSide? next = none := by
        rw [Tree.eq_operator_of_isOperator prime.2]
        decide
      have bound := ih target (count + 1) (next :: before) (.inr prime.1)
      have operand := braceSide?_of_isOperand prime.1
      rw [pairs_cons_of_unsigned operand, pairsWhere_cons_of_unsigned operand] at bound
      rwa [pairs_cons_of_unsigned operand, pairs_cons_of_unsigned unsigned,
        pairsWhere_cons_of_unsigned operand, pairsWhere_cons_of_unsigned unsigned,
        pairsWhere_congr (fun _ _ _ => rfl) _ (target :: next :: before)]
    · dsimp only
      split
      · rename_i last
        simp only [Bool.and_eq_true, List.isEmpty_iff] at last
        obtain ⟨⟨_, rfl⟩, mark⟩ := last
        have apart : opensPair target [next] = false := by
          rw [Bool.eq_false_iff, Ne, opensPair_iff]
          rintro ⟨_, _, _, _, _, same⟩
          cases same
          cases mark
        have unpaired : pairs [target, next] = 0 := by
          rw [pairs, apart]
          rfl
        omega
      · have bound := ih next 0 (target :: before) (.inl rfl)
        by_cases operand : target.isOperand = true
        · have unsigned := braceSide?_of_isOperand operand
          rw [pairs_cons_of_unsigned unsigned, pairsWhere_cons_of_unsigned unsigned]
          refine Nat.le_trans bound (Nat.add_le_add_right ?_ _)
          exact Nat.le_add_left _ _
        · obtain rfl := primed.resolve_right operand
          refine pairs_cons_le bound fun opens alone => opensPair_of_kept opens ?_
          rintro left right contents behind ⟨⟩
          exact foldMarks_bracketed alone

theorem pairs_filter (elements : List Tree) :
    pairs elements ≤ pairs (elements.filter (!·.isOperator Glyph.invisibleProduct)) := by
  induction elements with
  | nil => exact Nat.le_refl _
  | cons element elements ih =>
    rw [List.filter_cons]
    split
    · refine pairs_cons_le_cons ih fun opens => opensPair_of_kept opens ?_
      rintro left right contents behind rfl
      exact ⟨_, rfl⟩
    · rename_i product
      have product : element.isOperator Glyph.invisibleProduct = true := by simpa using product
      rw [Tree.eq_operator_of_isOperator product, pairs_cons_of_unsigned (by decide)]
      exact ih

end PlainMath.Layout
