import PlainMath.Proofs.Layout.Finished
import PlainMath.Proofs.Layout.InPlace

/-! The visits of all passes by changes to the list of elements in place. Numbers behind
identifiers, radicals and braces are looked for from the end of the list, like script signs; bounds
and marks from its start, where the index stays until nothing more can be folded at it. Every index
that is used lies within the list as it is then, every turn of a loop brings it nearer to its end,
and the outcome is that of the visit. -/
namespace PlainMath.Layout
open PlainMath.Tree

def replace? (elements : List Tree) (index : Nat) (element : Tree) : Option (List Tree) :=
  if index < elements.length then some (elements.set index element) else none

def cut? (elements : List Tree) (index : Nat) : Option (List Tree × List Tree) :=
  if index ≤ elements.length then some (elements.take index, elements.drop index) else none

section
variable (left done : List Tree) (first second : Tree)

theorem replace?_reverse_append :
    replace? (left.reverse ++ first :: done) left.length second =
      some (left.reverse ++ second :: done) := by
  simp [replace?]

theorem cut?_second : cut? (left ++ first :: done) (left.length + 1) =
    some (left ++ [first], done) := by
  have cut (front : List Tree) : cut? (front ++ done) front.length = some (front, done) := by
    simp [cut?]
  simpa using cut (left ++ [first])

theorem remove?_second : remove? (left.reverse ++ first :: second :: done) (left.length + 1) =
    some (second, left.reverse ++ first :: done) := by
  simpa using remove?_reverse_append (first :: left) done second

end

def numberEdit : Edit := fun index elements => do
  let before ← before? index
  let first ← elements[before.val]?
  let second ← elements[index]?
  if isNumbered first second then
    let (script, elements) ← remove? elements index
    let (base, elements) ← remove? elements before
    let elements ← insert? elements before (.scripted base (some script) none)
    return (Fin.last index, elements)
  else
    return (Fin.last index, elements)

def rootEdit : Edit := fun index elements => do
  let before ← before? index
  let sign ← elements[before.val]?
  match radical? sign with
  | none => return (Fin.last index, elements)
  | some degree =>
    let (radicand, elements) ← remove? elements index
    let elements ← replace? elements before (.root radicand.unwrap degree)
    return (Fin.last index, elements)

/-- A grid row as one tree; its only cell is the one at index zero. -/
def flatten? (cells : List Tree) : Option Tree :=
  if cells.length = 1 then (remove? cells 0).map Prod.fst else some (.row cells)

def braceEdit : Edit := fun index elements => do
  let before ← before? index
  let sign ← elements[before.val]?
  let bracket ← elements[index]?
  match braceSide? sign, twoRows? bracket with
  | some side, some (comment, base) =>
    let (_, elements) ← remove? elements index
    let comment ← flatten? comment
    let base ← flatten? base
    let elements ← replace? elements before (.brace side base comment)
    return (Fin.last index, elements)
  | _, _ => return (Fin.last index, elements)

/-- The edit does to an element and what has been made of those behind it what the step does. -/
def Edit.Follows (edit : Edit) (step : Tree → List Tree → List Tree) : Prop :=
  ∀ left element next done,
    edit (element :: left).length ((element :: left).reverse ++ next :: done) =
      some (Fin.last _, left.reverse ++ step element (next :: done))

theorem Edit.Follows.descend {edit : Edit} {step : Tree → List Tree → List Tree}
    (follows : edit.Follows step) (alone : ∀ element, step element [] = [element])
    (nonempty : ∀ element done, step element done ≠ []) (elements : List Tree) :
    edit.descend 1 elements.length elements = some (elements.foldr step []) := by
  have from_right (left : List Tree) (next : Tree) (done : List Tree) :
      edit.descend 1 (next :: left).length ((next :: left).reverse ++ done) =
        some (left.foldl (fun done element => step element done) (next :: done)) := by
    induction left generalizing next done with
    | nil => simp [Edit.descend]
    | cons element left ih =>
      obtain ⟨head, tail, made⟩ := List.exists_cons_of_ne_nil (nonempty element (next :: done))
      have again := ih head tail
      rw [List.reverse_cons, List.append_assoc, List.singleton_append] at again
      rw [descend_cons (by simp) (follows left element next done), List.foldl_cons, made]
      exact again
  rcases elements.eq_nil_or_concat with rfl | ⟨front, last, rfl⟩
  · rw [List.length_nil, Edit.descend]
    rfl
  · have whole := from_right front.reverse last []
    simpa [alone] using whole

def joinNumber (element : Tree) : List Tree → List Tree
  | [] => [element]
  | next :: done =>
    if isNumbered element next then .scripted element (some next) none :: done
    else element :: next :: done

theorem implicitSubscripts_eq_foldr (elements : List Tree) :
    implicitSubscripts elements = elements.foldr joinNumber [] := by
  fun_induction implicitSubscripts elements with
  | case1 symbol numeral rest ih =>
    have number (done : List Tree) :
        joinNumber (.number numeral) done = .number numeral :: done := by
      cases done <;> rfl
    rw [List.foldr_cons, List.foldr_cons, ← ih, number]
    rfl
  | case2 element rest other ih =>
    rw [List.foldr_cons, ← ih]
    cases rest with
    | nil => rfl
    | cons next rest =>
      have apart : isNumbered element next = false := by
        unfold isNumbered
        split
        · exact (other _ _ _ rfl rfl).elim
        · rfl
      -- what the next element becomes is no number unless it was one
      rw [implicitSubscripts.eq_def (next :: rest)]
      split
      · simp [joinNumber, isNumbered]
      · rename_i same
        cases same
        simp [joinNumber, apart]
      · rename_i same
        cases same
  | case3 => rfl

theorem numberEdit_follows : numberEdit.Follows joinNumber := by
  intro left element next done
  cases numbered : isNumbered element next with
  | false => simp [numberEdit, joinNumber, numbered, before?]
  | true =>
    simp [numberEdit, joinNumber, numbered, before?, remove?_second, remove?_reverse_append,
      insert?_reverse_append]

theorem rootEdit_follows : rootEdit.Follows rootStep := by
  intro left element next done
  cases degree : radical? element with
  | none => simp [rootEdit, rootStep, degree, before?]
  | some index =>
    simp [rootEdit, rootStep, degree, before?, remove?_second, replace?_reverse_append]

theorem flatten?_eq (cells : List Tree) : flatten? cells = some (sideBySide cells) := by
  rcases cells with _ | ⟨first, _ | ⟨second, rest⟩⟩
  · rfl
  · rfl
  · simp [flatten?, sideBySide]

theorem braceEdit_follows : braceEdit.Follows braceStep := by
  intro left element next done
  cases side : braceSide? element with
  | none => simp [braceEdit, braceStep, side, before?]
  | some side =>
    cases rows : twoRows? next with
    | none => simp [braceEdit, braceStep, *, before?]
    | some rows =>
      simp [braceEdit, braceStep, *, before?, remove?_second, flatten?_eq, replace?_reverse_append]

def Turn : Type := (index : Nat) → List Tree → Option (Nat × List Tree)

/-- Goes up from an index to the end of the list. A turn after which as much of the list is left as
before has no outcome either. -/
def Turn.ascend (turn : Turn) (index : Nat) (elements : List Tree) : Option (List Tree) :=
  if index < elements.length then
    match turn index elements with
    | none => none
    | some (next, changed) =>
      if changed.length - next < elements.length - index then ascend turn next changed else none
  else
    some elements
termination_by elements.length - index

theorem ascend_end (turn : Turn) (left : List Tree) (last : Tree) :
    turn.ascend (left.length + 1) (left.reverse ++ [last]) = some (left.reverse ++ [last]) := by
  rw [Turn.ascend, if_neg (by simp)]

section
variable {turn : Turn} {left rest changed : List Tree} {target next : Tree}

theorem ascend_on (same : turn (left.length + 1) (left.reverse ++ target :: next :: rest) =
      some (left.length + 1 + 1, left.reverse ++ target :: next :: rest)) :
    turn.ascend (left.length + 1) (left.reverse ++ target :: next :: rest) =
      turn.ascend ((target :: left).length + 1) ((target :: left).reverse ++ next :: rest) := by
  rw [Turn.ascend, if_pos (by simp), same]
  dsimp only
  rw [if_pos (by simp; omega)]
  simp

theorem ascend_fold {made : Tree}
    (folds : turn (left.length + 1) (left.reverse ++ target :: next :: rest) =
      some (left.length + 1, left.reverse ++ made :: changed))
    (fewer : changed.length < (next :: rest).length) :
    turn.ascend (left.length + 1) (left.reverse ++ target :: next :: rest) =
      turn.ascend (left.length + 1) (left.reverse ++ made :: changed) := by
  rw [Turn.ascend, if_pos (by simp), folds]
  dsimp only
  rw [if_pos]
  simp at fewer ⊢
  omega

end

def bounds? : Option Tree → Option (Tree × Option Tree)
  | none => some (.emptyRow, none)
  | some (.row elements) =>
    match elements.findIdx? (·.isOperator Glyph.range) with
    | none => some (.row elements, none)
    | some place => do
      let (front, upper) ← cut? elements (place + 1)
      return ((ofRow? (front.take place)).getD .emptyRow, ofRow? upper)
  | some other => some (other, none)

def rangeTurn : Turn := fun index elements => do
  let next ← elements[index]?
  let before ← before? index
  let target ← elements[before.val]?
  match rangeContents? next with
  | none => return (index + 1, elements)
  | some contents =>
    if takesRange target then
      let (_, elements) ← remove? elements index
      let limits ← bounds? contents
      let (target, elements) ← remove? elements before
      let elements ← insert? elements before (bound target limits)
      return (index, elements)
    else
      return (index + 1, elements)

def markTurn : Turn := fun index elements => do
  let before ← before? index
  let target ← elements[before.val]?
  if !target.isOperand then
    return (index + 1, elements)
  let next ← elements[index]?
  if next.isOperator Glyph.prime then
    let (front, behind) ← cut? elements index
    let count := (behind.takeWhile (·.isOperator Glyph.prime)).length
    let (_, behind) ← cut? behind count
    let (base, elements) ← remove? (front ++ behind) before
    let elements ← insert? elements before (raise base (primes count))
    return (index, elements)
  else if index + 1 = elements.length && next.operator?.any Glyph.isFinalMark then
    let (mark, elements) ← remove? elements index
    let (base, elements) ← remove? elements before
    let elements ← insert? elements before (raise base mark)
    return (index, elements)
  else
    return (index + 1, elements)

theorem findIdx?_eq_length_takeWhile (p : Tree → Bool) (elements : List Tree) :
    elements.findIdx? p =
      (elements.dropWhile (!p ·)).head?.map fun _ => (elements.takeWhile (!p ·)).length := by
  induction elements with
  | nil => rfl
  | cons element elements ih =>
    cases holds : p element with
    | true => simp [List.findIdx?_cons, holds]
    | false =>
      rw [List.findIdx?_cons, ih]
      simp [holds, Function.comp_def]

theorem bounds?_eq (contents : Option Tree) : bounds? contents = some (bounds contents) := by
  rcases contents with _ | contents
  · rfl
  cases contents with
  | row elements =>
    have whole := List.takeWhile_append_dropWhile
      (p := fun element : Tree => !element.isOperator Glyph.range) (l := elements)
    simp only [bounds?, bounds, findIdx?_eq_length_takeWhile]
    cases parts : elements.dropWhile (!·.isOperator Glyph.range) with
    | nil => rfl
    | cons dots upper =>
      -- the dots are the last of the elements that stay when those behind them are cut off
      rw [parts] at whole
      generalize elements.takeWhile (!·.isOperator Glyph.range) = lower at whole
      subst whole
      simp [cut?_second]
  | _ => rfl

theorem rangeTurn_other {left rest : List Tree} {target next : Tree}
    (other : rangeContents? next = none ∨ takesRange target = false) :
    rangeTurn (left.length + 1) (left.reverse ++ target :: next :: rest) =
      some (left.length + 1 + 1, left.reverse ++ target :: next :: rest) := by
  cases contents : rangeContents? next with
  | none => simp [rangeTurn, before?, contents]
  | some contents' =>
    have closed := other.resolve_left (by simp [contents])
    simp [rangeTurn, before?, contents, closed]

theorem rangeTurn_bound (left rest : List Tree) {target next : Tree} {contents : Option Tree}
    (found : rangeContents? next = some contents) (takes : takesRange target = true) :
    rangeTurn (left.length + 1) (left.reverse ++ target :: next :: rest) =
      some (left.length + 1, left.reverse ++ bound target (bounds contents) :: rest) := by
  simp [rangeTurn, before?, found, takes, bounds?_eq, remove?_second, remove?_reverse_append,
    insert?_reverse_append]

theorem ascend_rangeTurn (left rest : List Tree) (target : Tree) :
    rangeTurn.ascend (left.length + 1) (left.reverse ++ target :: rest) =
      some (left.reverse ++ foldRanges target rest) := by
  induction rest generalizing left target with
  | nil => exact ascend_end rangeTurn left target
  | cons next rest ih =>
    have on (other : rangeContents? next = none ∨ takesRange target = false) :
        rangeTurn.ascend (left.length + 1) (left.reverse ++ target :: next :: rest) =
          some (left.reverse ++ target :: foldRanges next rest) := by
      rw [ascend_on (rangeTurn_other other), ih]
      simp
    cases found : rangeContents? next with
    | none => simpa [foldRanges, found] using on (.inl found)
    | some contents =>
      cases takes : takesRange target with
      | false => simpa [foldRanges, found, takes] using on (.inr takes)
      | true =>
        rw [ascend_fold (rangeTurn_bound left rest found takes) (by simp), ih]
        simp [foldRanges, found, takes]

theorem cut?_length_takeWhile (p : Tree → Bool) (elements : List Tree) :
    cut? elements (elements.takeWhile p).length =
      some (elements.takeWhile p, elements.dropWhile p) := by
  have whole := List.takeWhile_append_dropWhile (p := p) (l := elements)
  generalize elements.takeWhile p = run at whole ⊢
  generalize elements.dropWhile p = behind at whole ⊢
  simp [cut?, ← whole]

theorem markTurn_operator {left rest : List Tree} {target next : Tree}
    (operator : target.isOperand = false) :
    markTurn (left.length + 1) (left.reverse ++ target :: next :: rest) =
      some (left.length + 1 + 1, left.reverse ++ target :: next :: rest) := by
  simp [markTurn, before?, operator]

theorem markTurn_primes (left rest : List Tree) {target next : Tree}
    (operand : target.isOperand = true) (prime : next.isOperator Glyph.prime = true) :
    markTurn (left.length + 1) (left.reverse ++ target :: next :: rest) =
      some (left.length + 1, left.reverse ++
        raise target (primes ((rest.takeWhile (·.isOperator Glyph.prime)).length + 1)) ::
          rest.dropWhile (·.isOperator Glyph.prime)) := by
  have front := cut?_second left.reverse (next :: rest) target
  rw [List.length_reverse] at front
  have run := cut?_length_takeWhile (·.isOperator Glyph.prime) (next :: rest)
  simp only [List.takeWhile_cons, List.dropWhile_cons, prime, if_true, List.length_cons] at run
  simp [markTurn, before?, operand, prime, front, run, remove?_reverse_append,
    insert?_reverse_append]

theorem markTurn_mark (left : List Tree) {target next : Tree} (operand : target.isOperand = true)
    (other : next.isOperator Glyph.prime = false)
    (mark : next.operator?.any Glyph.isFinalMark = true) :
    markTurn (left.length + 1) (left.reverse ++ [target, next]) =
      some (left.length + 1, left.reverse ++ [raise target next]) := by
  have put := insert?_reverse_append left [] (raise target next)
  rw [List.append_nil] at put
  simp [markTurn, before?, operand, other, mark, remove?_second, remove?_reverse_append, put]

theorem markTurn_other {left rest : List Tree} {target next : Tree}
    (other : next.isOperator Glyph.prime = false)
    (unmarked : rest = [] → next.operator?.any Glyph.isFinalMark = false) :
    markTurn (left.length + 1) (left.reverse ++ target :: next :: rest) =
      some (left.length + 1 + 1, left.reverse ++ target :: next :: rest) := by
  cases rest with
  | nil => simp [markTurn, before?, other, unmarked rfl]
  | cons second rest =>
    have more : left.length + 1 + 1 ≠ left.length + (rest.length + 1 + 1 + 1) := by omega
    simp [markTurn, before?, other, more]

theorem foldMarks_primes {target : Tree} (operand : target.isOperand = true) {count : Nat}
    (primed : 0 < count) (rest : List Tree) :
    foldMarks target count rest =
      foldMarks (raise target
          (primes (count + (rest.takeWhile (·.isOperator Glyph.prime)).length)))
        0 (rest.dropWhile (·.isOperator Glyph.prime)) := by
  have raised (count : Nat) (primed : 0 < count) :
      raisePrimes target count = raise target (primes count) := by
    rw [raisePrimes, if_neg (by omega)]
  have same (base : Tree) : raisePrimes base 0 = base := rfl
  induction rest generalizing count with
  | nil => simp [foldMarks, raised count primed, same]
  | cons next rest ih =>
    cases prime : next.isOperator Glyph.prime with
    | false => simp [foldMarks, prime, raised count primed, same]
    | true =>
      rw [foldMarks, if_pos (by simp [operand, prime]), ih (by omega),
        List.takeWhile_cons_of_pos prime, List.dropWhile_cons_of_pos prime, List.length_cons,
        Nat.add_assoc, Nat.add_comm 1]

theorem ascend_markTurn (left rest : List Tree) (target : Tree) :
    markTurn.ascend (left.length + 1) (left.reverse ++ target :: rest) =
      some (left.reverse ++ foldMarks target 0 rest) := by
  -- a run of primes goes in one turn, so the induction is on how much is left
  induction size : rest.length using Nat.strongRecOn generalizing left target rest with
  | _ size ih =>
    cases rest with
    | nil => exact ascend_end markTurn left target
    | cons next rest =>
      rw [List.length_cons] at size
      have on (same : markTurn (left.length + 1) (left.reverse ++ target :: next :: rest) =
            some (left.length + 1 + 1, left.reverse ++ target :: next :: rest)) :
          markTurn.ascend (left.length + 1) (left.reverse ++ target :: next :: rest) =
            some (left.reverse ++ target :: foldMarks next 0 rest) := by
        rw [ascend_on same, ih rest.length (by omega) _ _ _ rfl]
        simp
      cases operand : target.isOperand with
      | false =>
        rw [on (markTurn_operator operand)]
        simp [foldMarks, operand, raisePrimes]
      | true =>
        cases prime : next.isOperator Glyph.prime with
        | true =>
          have fewer := (List.dropWhile_suffix (l := rest) (·.isOperator Glyph.prime)).length_le
          rw [ascend_fold (markTurn_primes left rest operand prime) (by simp; omega),
            ih _ (by omega) _ _ _ rfl, foldMarks.eq_def target 0 (next :: rest)]
          simp [operand, prime, foldMarks_primes operand Nat.one_pos rest, Nat.add_comm 1]
        | false =>
          by_cases ends : rest = [] ∧ next.operator?.any Glyph.isFinalMark = true
          · obtain ⟨rfl, mark⟩ := ends
            rw [ascend_fold (markTurn_mark left operand prime mark) (by simp),
              ascend_end]
            simp [foldMarks, operand, prime, mark, raisePrimes]
          · rw [on (markTurn_other prime (by simpa using ends))]
            simp [foldMarks, operand, prime, raisePrimes, ends]

def bar? (elements : List Tree) (index : Nat) : Option (Option Nat) :=
  if index < elements.length - 1 then
    match elements[index]? with
    | none => none
    | some element =>
      if element.isOperator Glyph.fractionBar then some (some index)
      else bar? elements (index + 1)
  else
    some none
termination_by elements.length - index

def fractionInPlace (elements : List Tree) : Option (List Tree) := do
  match ← bar? elements 1 with
  | none => return elements
  | some bar =>
    let (front, behind) ← cut? elements (bar + 1)
    return [.fraction (side (front.take bar)) (side behind)]

theorem bar?_append (front rest : List Tree) :
    bar? (front ++ rest) front.length =
      some (match rest.dropWhile (!·.isOperator Glyph.fractionBar) with
        | _ :: _ :: _ =>
          some (front.length + (rest.takeWhile (!·.isOperator Glyph.fractionBar)).length)
        | _ => none) := by
  induction rest generalizing front with
  | nil =>
    rw [bar?, if_neg (by simp)]
    rfl
  | cons element rest ih =>
    cases rest with
    | nil =>
      rw [bar?, if_neg (by simp)]
      cases bar : element.isOperator Glyph.fractionBar <;> simp [bar]
    | cons next rest =>
      rw [bar?, if_pos (by simp)]
      cases bar : element.isOperator Glyph.fractionBar with
      | true => simp [bar]
      | false =>
        have further := ih (front ++ [element])
        rw [List.append_assoc, List.singleton_append, List.length_append,
          List.length_singleton] at further
        simp only [List.getElem?_append_right (Nat.le_refl _), Nat.sub_self,
          List.getElem?_cons_zero, bar, Bool.false_eq_true, if_false]
        have dropped : (element :: next :: rest).dropWhile (!·.isOperator Glyph.fractionBar) =
            (next :: rest).dropWhile (!·.isOperator Glyph.fractionBar) :=
          List.dropWhile_cons_of_pos (by simp [bar])
        have taken : (element :: next :: rest).takeWhile (!·.isOperator Glyph.fractionBar) =
            element :: (next :: rest).takeWhile (!·.isOperator Glyph.fractionBar) :=
          List.takeWhile_cons_of_pos (by simp [bar])
        rw [further, dropped, taken, List.length_cons, Nat.add_assoc, Nat.add_comm 1]

theorem fractionInPlace_eq (elements : List Tree) :
    fractionInPlace elements = some (foldFraction elements) := by
  rcases elements with _ | ⟨first, rest⟩
  · rw [fractionInPlace, bar?, if_neg (by simp)]
    rfl
  have found := bar?_append [first] rest
  rw [List.singleton_append, List.length_singleton] at found
  have whole := List.takeWhile_append_dropWhile
    (p := fun element : Tree => !element.isOperator Glyph.fractionBar) (l := rest)
  simp only [fractionInPlace, found, foldFraction, cutAtBar?]
  rcases parts : rest.dropWhile (!·.isOperator Glyph.fractionBar) with _ | ⟨bar, _ | ⟨next, behind⟩⟩
  · simp [parts]
  · simp [parts]
  · rw [parts] at whole
    have cut := cut?_second (first :: rest.takeWhile (!·.isOperator Glyph.fractionBar))
      (next :: behind) bar
    rw [List.cons_append, whole, List.length_cons] at cut
    simp [parts, cut, Nat.add_comm 1]

def inCluster (change : List Tree → Option (List Tree)) : Tree → Option Tree
  | .cluster elements => (change elements).map .cluster
  | tree => some tree

def inSequence (change : List Tree → Option (List Tree)) : Tree → Option Tree
  | .row elements => (change elements).map .row
  | .cluster elements => (change elements).map .cluster
  | tree => some tree

/-- The visit in place. Dropping the invisible products and settling the meaning of an operator
need no index. -/
def Pass.visitInPlace : Pass → Tree → Option Tree
  | .invisibleProduct => fun tree => some (Layout.invisibleProduct tree)
  | .subscripts => inCluster fun elements => do
    let elements ← subscriptsInPlace elements
    numberEdit.descend 1 elements.length elements
  | .exponents => inCluster exponentsInPlace
  | .ranges => inCluster (rangeTurn.ascend 1)
  | .roots => inSequence fun elements => rootEdit.descend 1 elements.length elements
  | .fractions => inSequence fractionInPlace
  | .operatorMeaning => fun tree => some (Layout.operatorMeaning tree)
  | .operatorSuperscripts => inCluster (markTurn.ascend 1)
  | .braces => inSequence fun elements => braceEdit.descend 1 elements.length elements

section
variable {change : List Tree → Option (List Tree)} {fold : List Tree → List Tree}
  (same : ∀ elements, change elements = some (fold elements))
include same

theorem inCluster_eq (tree : Tree) : inCluster change tree =
    some (match tree with
      | .cluster elements => .cluster (fold elements)
      | tree => tree) := by
  cases tree with
  | cluster elements => simp [inCluster, same]
  | _ => rfl

theorem inSequence_eq (tree : Tree) : inSequence change tree =
    some (match tree with
      | .row elements => .row (fold elements)
      | .cluster elements => .cluster (fold elements)
      | tree => tree) := by
  cases tree with
  | row elements | cluster elements => simp [inSequence, same]
  | _ => rfl

end

theorem inCluster_ascend {turn : Turn} {fold : Tree → List Tree → List Tree}
    (same : ∀ (left rest : List Tree) (target : Tree),
      turn.ascend (left.length + 1) (left.reverse ++ target :: rest) =
        some (left.reverse ++ fold target rest)) (tree : Tree) :
    inCluster (turn.ascend 1) tree =
      some (match tree with
        | .cluster (first :: rest) => .cluster (fold first rest)
        | tree => tree) := by
  cases tree with
  | cluster elements =>
    cases elements with
    | nil => simp [inCluster, Turn.ascend]
    | cons first rest => simpa [inCluster] using same [] rest first
  | _ => rfl

theorem descend_numberEdit (elements : List Tree) :
    numberEdit.descend 1 elements.length elements = some (implicitSubscripts elements) := by
  rw [implicitSubscripts_eq_foldr]
  refine numberEdit_follows.descend (fun _ => rfl) ?_ elements
  intro element done
  unfold joinNumber
  split
  · simp
  · split <;> simp

theorem descend_rootEdit (elements : List Tree) :
    rootEdit.descend 1 elements.length elements = some (foldRoots elements) := by
  refine rootEdit_follows.descend (fun element => ?_) (fun element done => ?_) elements
  · unfold rootStep
    split <;> simp_all
  · unfold rootStep
    split <;> simp

theorem descend_braceEdit (elements : List Tree) :
    braceEdit.descend 1 elements.length elements = some (foldBraces elements) := by
  refine braceEdit_follows.descend (fun element => ?_) (fun element done => ?_) elements
  · unfold braceStep
    split <;> simp_all
  · unfold braceStep
    split
    · split <;> simp
    · simp

theorem visitInPlace_eq (pass : Pass) (tree : Tree) :
    pass.visitInPlace tree = some (pass.visit tree) := by
  cases pass with
  | invisibleProduct | operatorMeaning => rfl
  | subscripts =>
    have same (elements : List Tree) : ((subscriptsInPlace elements).bind fun elements =>
          numberEdit.descend 1 elements.length elements) =
        some (implicitSubscripts (subscriptRule.fold elements)) := by
      rw [subscriptsInPlace_eq, Option.bind_some, descend_numberEdit]
    refine (inCluster_eq same tree).trans ?_
    cases tree <;> rfl
  | exponents =>
    refine (inCluster_eq exponentsInPlace_eq tree).trans ?_
    cases tree <;> rfl
  | ranges => exact inCluster_ascend ascend_rangeTurn tree
  | roots =>
    refine (inSequence_eq descend_rootEdit tree).trans ?_
    cases tree <;> rfl
  | fractions =>
    refine (inSequence_eq fractionInPlace_eq tree).trans ?_
    cases tree <;> rfl
  | operatorSuperscripts => exact inCluster_ascend ascend_markTurn tree
  | braces =>
    refine (inSequence_eq descend_braceEdit tree).trans ?_
    cases tree <;> rfl

end PlainMath.Layout
