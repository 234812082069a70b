import Mathlib.Data.List.Forall2
import Mathlib.Data.List.TakeWhile
import PlainMath.Proofs.Layout.BraceCount
import PlainMath.Proofs.Layout.Finished
import PlainMath.Proofs.Layout.InPlace
import PlainMath.Tree.Equality

/-! Runs of neighbours that belong together, however long they are and whatever stands around them:
an identifier and its number, any number of sides with bars between them, and an operator with any
number of square brackets behind it. -/
namespace PlainMath.Layout
open PlainMath.Tree

section
variable {rule : ScriptRule}

theorem enter_append {element : Tree} {done : List Tree}
    (other : element.isOperator rule.sign = false ∨ done ≠ []) (more : List Tree) :
    rule.enter element (done ++ more) =
      ⟨(rule.enter element done).waiting, (rule.enter element done).done ++ more⟩ := by
  cases sign : element.isOperator rule.sign with
  | false => simp [ScriptRule.enter, sign]
  | true =>
    obtain ⟨script, behind, rfl⟩ := List.exists_cons_of_ne_nil (other.resolve_left (by simp [sign]))
    simp [ScriptRule.enter, sign]

variable (kept : ∀ script, rule.detached script ≠ [])
include kept

theorem step_append {element : Tree} (scan : Scan) (other : element.isOperator rule.sign = false ∨
      scan.waiting.isSome = true ∨ scan.done ≠ []) (more : List Tree) :
    rule.step element ⟨scan.waiting, scan.done ++ more⟩ =
      ⟨(rule.step element scan).waiting, (rule.step element scan).done ++ more⟩ := by
  obtain ⟨waiting, done⟩ := scan
  cases waiting with
  | none => exact enter_append (other.imp_right (Or.resolve_left · (by simp))) more
  | some script =>
    cases operand : element.isOperand with
    | true => simp [ScriptRule.step, operand]
    | false =>
      have passed : element.isOperator rule.sign = false ∨ rule.detached script ++ done ≠ [] :=
        .inr (by simp [kept])
      simpa [ScriptRule.step, operand] using enter_append passed more

theorem scan_append {front behind : List Tree}
    (last : ∀ element ∈ front.getLast?, element.isOperator rule.sign = false)
    (first : ∀ element ∈ behind.head?, element.isOperator rule.sign = false) :
    rule.scan (front ++ behind) =
      ⟨(rule.scan front).waiting, (rule.scan front).done ++ rule.fold behind⟩ := by
  have idle : rule.scan behind = ⟨none, rule.fold behind⟩ := by
    change _ = Scan.mk none (rule.close (rule.scan behind))
    cases scanned : rule.scan behind with
    | mk waiting done =>
      cases waiting with
      | none => rfl
      | some script =>
        obtain ⟨sign, more, rfl, found, _⟩ := ScriptRule.eq_sign_cons_of_waiting scanned
        simp [first sign rfl] at found
  induction front with
  | nil => exact idle
  | cons element front ih =>
    change rule.step element (rule.scan (front ++ behind)) =
      ⟨(rule.step element (rule.scan front)).waiting,
        (rule.step element (rule.scan front)).done ++ rule.fold behind⟩
    cases front with
    | nil =>
      rw [List.nil_append, idle]
      exact step_append kept ⟨none, []⟩ (.inl (last element rfl)) (rule.fold behind)
    | cons next front =>
      rw [ih (by simpa using last)]
      exact step_append kept _ (.inr (step_leaves rule next (rule.scan front))) (rule.fold behind)

theorem fold_append {front behind : List Tree}
    (last : ∀ element ∈ front.getLast?, element.isOperator rule.sign = false)
    (first : ∀ element ∈ behind.head?, element.isOperator rule.sign = false) :
    rule.fold (front ++ behind) = rule.fold front ++ rule.fold behind := by
  change rule.close (rule.scan (front ++ behind)) = rule.close (rule.scan front) ++ rule.fold behind
  rw [scan_append kept last first]
  obtain ⟨waiting, done⟩ := rule.scan front
  cases waiting <;> simp [ScriptRule.close]

end

theorem implicitSubscripts_cons_of_plain {first : Tree} {rest : List Tree}
    (plain : ∀ next ∈ rest.head?, isNumbered first next = false) :
    implicitSubscripts (first :: rest) = first :: implicitSubscripts rest := by
  rw [implicitSubscripts]
  rintro symbol numeral more rfl rfl
  cases plain _ rfl

theorem implicitSubscripts_append {front behind : List Tree}
    (apart : ∀ last ∈ front.getLast?, ∀ first ∈ behind.head?, isNumbered last first = false) :
    implicitSubscripts (front ++ behind) =
      implicitSubscripts front ++ implicitSubscripts behind := by
  fun_induction implicitSubscripts front with
  | case1 symbol numeral rest ih =>
    have inner : ∀ last ∈ rest.getLast?, ∀ first ∈ behind.head?, isNumbered last first = false :=
      fun last found => apart last (by simp [List.getLast?_cons, Option.mem_def.mp found])
    simp [implicitSubscripts, ih inner]
  | case2 element rest other ih =>
    have inner : ∀ last ∈ rest.getLast?, ∀ first ∈ behind.head?, isNumbered last first = false :=
      fun last found => apart last (by simp [List.getLast?_cons, Option.mem_def.mp found])
    have plain : ∀ next ∈ (rest ++ behind).head?, isNumbered element next = false := by
      cases rest with
      | nil => exact apart element rfl
      | cons next rest =>
        rintro _ ⟨⟩
        unfold isNumbered
        split
        · exact (other _ _ _ rfl rfl).elim
        · rfl
    rw [List.cons_append, implicitSubscripts_cons_of_plain plain, ih inner, List.cons_append]
  | case3 => rfl

theorem visit_subscripts_block {before block made behind : List Tree}
    (last : ∀ element ∈ before.getLast?, element.isOperator Glyph.subscript = false)
    (first : ∀ element ∈ behind.head?, element.isOperator Glyph.subscript = false)
    (starts : ∃ head, block.head? = some head ∧ head.isOperator Glyph.subscript = false)
    (ends : ∀ element ∈ block.getLast?, element.isOperator Glyph.subscript = false)
    (folded : subscriptRule.fold block = made)
    (front : ∀ next ∈ (made ++ subscriptRule.fold behind).head?, ∀ element,
      isNumbered element next = false)
    (back : ∀ element ∈ made.getLast?, ∀ next, isNumbered element next = false) :
    Pass.subscripts.visit (.cluster (before ++ block ++ behind)) =
      .cluster (implicitSubscripts (subscriptRule.fold before) ++ implicitSubscripts made ++
        implicitSubscripts (subscriptRule.fold behind)) := by
  have kept : ∀ script, subscriptRule.detached script ≠ [] := fun _ => by simp [subscriptRule]
  obtain ⟨head, starts, plain⟩ := starts
  have opens : ∀ element ∈ (block ++ behind).head?, element.isOperator Glyph.subscript = false := by
    simpa [starts] using plain
  have cut : subscriptRule.fold (before ++ block ++ behind) =
      subscriptRule.fold before ++ (made ++ subscriptRule.fold behind) := by
    rw [List.append_assoc, fold_append kept last opens, fold_append kept ends first, folded]
  change Tree.cluster (implicitSubscripts (subscriptRule.fold (before ++ block ++ behind))) = _
  rw [cut, implicitSubscripts_append fun element _ next found => front next found element,
    implicitSubscripts_append fun element found next _ => back element found next,
    ← List.append_assoc]

/-- Around an identifier and a number there may be any elements, if no subscript sign is next to the
two. With or without a sign between them they become the same, and the elements on either side
become what they would be on their own. -/
theorem visit_subscripts_numbered {before behind : List Tree} (symbol numeral : String)
    (last : ∀ element ∈ before.getLast?, element.isOperator Glyph.subscript = false)
    (first : ∀ element ∈ behind.head?, element.isOperator Glyph.subscript = false) :
    Pass.subscripts.visit (.cluster (before ++ [.identifier symbol, .number numeral] ++ behind)) =
      Pass.subscripts.visit (.cluster
        (before ++ [.identifier symbol, .operator Glyph.subscript, .number numeral] ++ behind)) ∧
    ∃ left right, Pass.subscripts.visit (.cluster before) = .cluster left ∧
      Pass.subscripts.visit (.cluster behind) = .cluster right ∧
      Pass.subscripts.visit
          (.cluster (before ++ [.identifier symbol, .number numeral] ++ behind)) =
        .cluster
          (left ++ [.scripted (.identifier symbol) (some (.number numeral)) none] ++ right) := by
  have unsigned : subscriptRule.fold [.identifier symbol, .number numeral] =
    [.identifier symbol, .number numeral] := rfl
  have signed : subscriptRule.fold
      [.identifier symbol, .operator Glyph.subscript, .number numeral] =
    [.scripted (.identifier symbol) (some (.number numeral)) none] := rfl
  have plain (next : Tree) : isNumbered next (.identifier symbol) = false ∧
    isNumbered next (.scripted (.identifier symbol) (some (.number numeral)) none) = false := by
    cases next <;> exact ⟨rfl, rfl⟩
  have implicit := visit_subscripts_block last first ⟨_, rfl, rfl⟩ (by simp [isOperator]) unsigned
    (by simpa using fun next => (plain next).1) (by simp [isNumbered])
  have explicit := visit_subscripts_block last first ⟨_, rfl, rfl⟩ (by simp [isOperator]) signed
    (by simpa using fun next => (plain next).2) (by simp [isNumbered])
  exact ⟨implicit.trans explicit.symm, _, _, rfl, rfl, implicit⟩

theorem visit_subscripts_numbered_between :
    (∀ element ∈ [Tree.identifier "a", .operator "_", .identifier "b"].getLast?,
        element.isOperator "_" = false) ∧
      (∀ element ∈ [Tree.number "2", .operator "_"].head?, element.isOperator "_" = false) ∧
      Pass.subscripts.visit (.cluster [.identifier "a", .operator "_", .identifier "b",
          .identifier "x", .operator "_", .number "1", .number "2", .operator "_"]) =
        Pass.subscripts.visit (.cluster [.identifier "a", .operator "_", .identifier "b",
          .identifier "x", .number "1", .number "2", .operator "_"]) := by
  have last : ∀ element ∈ [Tree.identifier "a", .operator "_", .identifier "b"].getLast?,
      element.isOperator "_" = false := by simp [isOperator]
  have first : ∀ element ∈ [Tree.number "2", .operator "_"].head?,
      element.isOperator "_" = false := by simp [isOperator]
  exact ⟨last, first, (visit_subscripts_numbered "x" "1" last first).1.symm⟩

theorem cutAtBar?_append {before behind : List Tree} (numerator : before ≠ [])
    (free : ∀ element ∈ before, element.isOperator Glyph.fractionBar = false)
    (denominator : behind ≠ []) :
    cutAtBar? (before ++ .operator Glyph.fractionBar :: behind) = some (before, behind) := by
  obtain ⟨first, rest, rfl⟩ := List.exists_cons_of_ne_nil numerator
  obtain ⟨next, more, rfl⟩ := List.exists_cons_of_ne_nil denominator
  have unbarred : ∀ element ∈ rest, (!element.isOperator Glyph.fractionBar) = true :=
    fun element member => by simp [free element (List.mem_cons_of_mem _ member)]
  have bar : (!(Tree.operator Glyph.fractionBar).isOperator Glyph.fractionBar) = false := rfl
  simp only [cutAtBar?, List.cons_append, List.dropWhile_append_of_pos unbarred,
    List.takeWhile_append_of_pos unbarred, List.dropWhile_cons, List.takeWhile_cons, bar,
    Bool.false_eq_true, if_false, List.append_nil]

def sideOutcome : List Tree → Tree
  | [only] => Pass.fractions.apply only.unwrap
  | elements => Pass.fractions.apply (.cluster elements)

theorem apply_side {elements : List Tree} (nonempty : elements ≠ []) :
    Pass.fractions.apply (side elements) = sideOutcome elements := by
  rcases elements with _ | ⟨first, _ | ⟨second, rest⟩⟩
  · contradiction
  · rfl
  · rfl

theorem apply_fractions_cut {tree : Tree} {before behind : List Tree}
    (holds : tree.elements? = some (before ++ .operator Glyph.fractionBar :: behind))
    (numerator : before ≠ [])
    (free : ∀ element ∈ before, element.isOperator Glyph.fractionBar = false)
    (denominator : behind ≠ []) :
    Pass.fractions.apply tree = .fraction (sideOutcome before) (sideOutcome behind) := by
  have folded : foldFraction (before ++ .operator Glyph.fractionBar :: behind) =
      [.fraction (side before) (side behind)] := by
    rw [foldFraction, cutAtBar?_append numerator free denominator]
  have visited : (Pass.fractions.visit tree).collapse = .fraction (side before) (side behind) := by
    cases tree with
    | row elements | cluster elements =>
      cases holds
      simp only [Pass.visit, fractions, folded, collapse]
    | _ => cases holds
  rw [Pass.apply_eq, visited, mapChildren, apply_side numerator, apply_side denominator]

theorem sideOutcome_of_bar {before behind : List Tree} (nonempty : before ≠ []) (bar : Tree) :
    sideOutcome (before ++ bar :: behind) =
      Pass.fractions.apply (.cluster (before ++ bar :: behind)) := by
  obtain ⟨first, rest, rfl⟩ := List.exists_cons_of_ne_nil nonempty
  cases rest <;> rfl

theorem intercalate_bar (first next : List Tree) (rest : List (List Tree)) :
    [.operator Glyph.fractionBar].intercalate (first :: next :: rest) =
      first ++ .operator Glyph.fractionBar ::
        [.operator Glyph.fractionBar].intercalate (next :: rest) := by
  simp [List.intercalate_cons_cons]

/-- Any number of sides, with bars between them: the first bar makes the outermost fraction, and
what stands behind it is cut in turn. -/
theorem apply_fractions_chain {tree : Tree} {first next : List Tree} {rest : List (List Tree)}
    (holds : tree.elements? =
      some ([.operator Glyph.fractionBar].intercalate (first :: next :: rest)))
    (sides : ∀ side ∈ first :: next :: rest, side ≠ [] ∧
      ∀ element ∈ side, element.isOperator Glyph.fractionBar = false) :
    Pass.fractions.apply tree =
      nest .fraction (sideOutcome first) ((next :: rest).map sideOutcome) := by
  induction rest generalizing tree first next with
  | nil =>
    obtain ⟨⟨numerator, free⟩, behind⟩ := List.forall_mem_cons.mp sides
    rw [intercalate_bar, List.intercalate_singleton] at holds
    exact apply_fractions_cut holds numerator free (behind next List.mem_cons_self).1
  | cons third rest ih =>
    obtain ⟨⟨numerator, free⟩, behind⟩ := List.forall_mem_cons.mp sides
    have further : Pass.fractions.apply
        (.cluster ([.operator Glyph.fractionBar].intercalate (next :: third :: rest))) =
          nest .fraction (sideOutcome next) ((third :: rest).map sideOutcome) := ih rfl behind
    rw [intercalate_bar] at holds further
    rw [← sideOutcome_of_bar (behind next List.mem_cons_self).1, ← intercalate_bar] at further
    rw [apply_fractions_cut holds numerator free (by simp), further]
    rfl

theorem apply_fractions_three_sides :
    (∀ side ∈ [[Tree.number "1"], [.bracketed "(" ")" (some (.identifier "x"))],
        [.identifier "y", .bracketed "(" ")" none]], side ≠ [] ∧
      ∀ element ∈ side, element.isOperator "/" = false) ∧
    Pass.fractions.apply (.row [.number "1", .operator "/",
        .bracketed "(" ")" (some (.identifier "x")), .operator "/", .identifier "y",
        .bracketed "(" ")" none]) =
      .fraction (.number "1") (.fraction (.identifier "x")
        (.cluster [.identifier "y", .bracketed "(" ")" none])) := by
  have sides : ∀ side ∈ [[Tree.number "1"], [.bracketed "(" ")" (some (.identifier "x"))],
        [.identifier "y", .bracketed "(" ")" none]], side ≠ [] ∧
      ∀ element ∈ side, element.isOperator "/" = false := by simp [isOperator]
  refine ⟨sides, (apply_fractions_chain rfl sides).trans ?_⟩
  decide +kernel

/-- The lower and the upper bound that a square bracket gives: the two sides of the first range
dots in a row, or else all of it and no upper bound. -/
inductive Gives : Tree → Tree × Option Tree → Prop
  | nothing (right : String) : Gives (.bracketed "[" right none) (.emptyRow, none)
  | sides (right : String) {before behind : List Tree}
      (first : ∀ element ∈ before, element.isOperator Glyph.range = false) :
      Gives (.bracketed "[" right (some (.row (before ++ .operator Glyph.range :: behind))))
        ((Tree.row before).collapse,
          if behind.isEmpty then none else some (Tree.row behind).collapse)
  | whole (right : String) {contents : Tree}
      (undivided : ∀ before behind, contents ≠ .row (before ++ .operator Glyph.range :: behind)) :
      Gives (.bracketed "[" right (some contents)) (contents, none)

theorem ofRow?_eq_ite (elements : List Tree) :
    ofRow? elements = if elements.isEmpty then none else some (Tree.row elements).collapse := by
  rcases elements with _ | ⟨first, _ | ⟨second, rest⟩⟩ <;> rfl

theorem gives_bounds (right : String) (contents : Option Tree) :
    Gives (.bracketed "[" right contents) (bounds contents) := by
  unfold bounds
  split
  · exact .nothing right
  · rename_i elements
    split
    · rename_i uncut
      refine .whole right ?_
      rintro before behind ⟨⟩
      rw [List.dropWhile_eq_nil_iff] at uncut
      simpa [isOperator] using uncut (.operator Glyph.range) (by simp)
    · rename_i dots upper found
      obtain ⟨range, cut⟩ := eq_append_of_cut found
      have first : ∀ element ∈ elements.takeWhile (!·.isOperator Glyph.range),
          element.isOperator Glyph.range = false := fun element member => by
        simpa using List.mem_takeWhile_imp member
      have sides := @Gives.sides right _ upper first
      rwa [← eq_operator_of_isOperator range, ← cut, ← ofRow?_getD, ← ofRow?_eq_ite] at sides
  · rename_i other unlike
    refine .whole right ?_
    rintro before behind rfl
    exact unlike _ rfl

def stack (limits : Tree) (further : List (Tree × Option Tree)) : Tree :=
  further.foldl (fun inner bounds => .stackedLimits inner bounds.1 bounds.2) limits

theorem exists_foldRanges_eq_cons {rest : List Tree}
    (plain : ∀ next ∈ rest.head?, rangeContents? next = none) :
    ∃ done, ∀ target, foldRanges target rest = target :: done := by
  cases rest with
  | nil => exact ⟨[], fun _ => rfl⟩
  | cons next rest =>
    exact ⟨foldRanges next rest, fun target => by simp [foldRanges, plain next rfl]⟩

def isLimits : Tree → Bool
  | .limits .. | .stackedLimits .. => true
  | _ => false

theorem bound_of_isLimits {target : Tree} (limits : isLimits target = true)
    (bounds : Tree × Option Tree) :
    bound target bounds = .stackedLimits target bounds.1 bounds.2 := by
  cases target with
  | limits | stackedLimits => rfl
  | _ => cases limits

theorem takesRange_of_isLimits {target : Tree} (limits : isLimits target = true) :
    takesRange target = true := by
  cases target with
  | limits | stackedLimits => rfl
  | _ => cases limits

theorem foldRanges_bracketed {target : Tree} (takes : takesRange target = true) (right : String)
    (contents : Option Tree) (rest : List Tree) :
    foldRanges target (.bracketed "[" right contents :: rest) =
      foldRanges (bound target (bounds contents)) rest := by
  simp [foldRanges, rangeContents?, takes]

theorem eq_bracketed_of_leftDelimiter? {group : Tree} {left : String}
    (square : group.leftDelimiter? = some left) :
    ∃ right contents, group = .bracketed left right contents := by
  cases group with
  | bracketed own right contents =>
    cases square
    exact ⟨right, contents, rfl⟩
  | _ => cases square

theorem foldRanges_stack {target : Tree} (limits : isLimits target = true) {groups : List Tree}
    (square : ∀ group ∈ groups, group.leftDelimiter? = some "[") (rest : List Tree) :
    ∃ further, List.Forall₂ Gives groups further ∧
      foldRanges target (groups ++ rest) = foldRanges (stack target further) rest := by
  induction groups generalizing target with
  | nil => exact ⟨[], .nil, rfl⟩
  | cons group groups ih =>
    obtain ⟨here, others⟩ := List.forall_mem_cons.mp square
    obtain ⟨right, contents, rfl⟩ := eq_bracketed_of_leftDelimiter? here
    have stacked (limits : Tree × Option Tree) :
        isLimits (.stackedLimits target limits.1 limits.2) = true := rfl
    obtain ⟨further, given, folded⟩ := ih (stacked (bounds contents)) others
    refine ⟨bounds contents :: further, .cons (gives_bounds right contents) given, ?_⟩
    rw [List.cons_append, foldRanges_bracketed (takesRange_of_isLimits limits),
      bound_of_isLimits limits, folded]
    rfl

theorem rangeContents?_of_leftDelimiter? {tree : Tree} (other : tree.leftDelimiter? ≠ some "[") :
    rangeContents? tree = none := by
  rw [Option.eq_none_iff_forall_ne_some]
  intro contents found
  obtain ⟨right, rfl⟩ := rangeContents?_eq_some found
  exact other rfl

/-- An operator and any number of square brackets behind it become limits that are stacked on one
another, the bounds of the first bracket innermost. What stands behind the brackets becomes what it
would be behind any other element. -/
theorem visit_ranges_stack {symbol : String} (bar : symbol ≠ Glyph.fractionBar)
    (dots : symbol ≠ Glyph.range) {first : Tree} {further rest : List Tree}
    (square : ∀ group ∈ first :: further, group.leftDelimiter? = some "[")
    (other : ∀ next ∈ rest.head?, next.leftDelimiter? ≠ some "[") :
    ∃ inner outer done, List.Forall₂ Gives (first :: further) (inner :: outer) ∧
      Pass.ranges.visit (.cluster (.operator symbol :: (first :: further) ++ rest)) =
        .cluster (stack (.limits symbol inner.1 inner.2) outer :: done) ∧
      ∀ node, Pass.ranges.visit (.cluster (node :: rest)) = .cluster (node :: done) := by
  obtain ⟨here, others⟩ := List.forall_mem_cons.mp square
  obtain ⟨right, contents, rfl⟩ := eq_bracketed_of_leftDelimiter? here
  have takes : takesRange (.operator symbol) = true := by simp [takesRange, bar, dots]
  have base : isLimits (.limits symbol (bounds contents).1 (bounds contents).2) = true := rfl
  obtain ⟨outer, given, folded⟩ := foldRanges_stack base others rest
  obtain ⟨done, behind⟩ := exists_foldRanges_eq_cons fun next found =>
    rangeContents?_of_leftDelimiter? (other next found)
  refine ⟨bounds contents, outer, done, .cons (gives_bounds right contents) given, ?_,
    fun node => congrArg Tree.cluster (behind node)⟩
  rw [← behind, ← folded]
  exact congrArg Tree.cluster (foldRanges_bracketed takes right contents (further ++ rest))

theorem visit_ranges_stack_sum :
    "&sum;" ≠ Glyph.fractionBar ∧ "&sum;" ≠ Glyph.range ∧
    (∀ group ∈ [Tree.bracketed "[" "]" (some (.row [.identifier "i", .operator "..", .number "9"])),
        .bracketed "[" "]" none], group.leftDelimiter? = some "[") ∧
    (∀ next ∈ [Tree.identifier "x"].head?, next.leftDelimiter? ≠ some "[") ∧
    ∃ inner outer done, List.Forall₂ Gives
        [.bracketed "[" "]" (some (.row [.identifier "i", .operator "..", .number "9"])),
          .bracketed "[" "]" none] (inner :: outer) ∧
      Pass.ranges.visit (.cluster [.operator "&sum;",
          .bracketed "[" "]" (some (.row [.identifier "i", .operator "..", .number "9"])),
          .bracketed "[" "]" none, .identifier "x"]) =
        .cluster (stack (.limits "&sum;" inner.1 inner.2) outer :: done) ∧
      ∀ node, Pass.ranges.visit (.cluster [node, .identifier "x"]) = .cluster (node :: done) := by
  have square : ∀ group ∈ [Tree.bracketed "[" "]"
        (some (.row [.identifier "i", .operator "..", .number "9"])), .bracketed "[" "]" none],
      group.leftDelimiter? = some "[" := by simp [leftDelimiter?]
  have other : ∀ next ∈ [Tree.identifier "x"].head?, next.leftDelimiter? ≠ some "[" := by
    simp [leftDelimiter?]
  exact ⟨by decide, by decide, square, other,
    visit_ranges_stack (by decide) (by decide) square other⟩

end PlainMath.Layout
