import PlainMath.Proofs.Arrow.Drawings
import PlainMath.Proofs.Arrow.Undoing

/-! Stacks of arrow lines. The lines of a stack label one and the same line, which is neither
blank nor an arrow line, so that the arrow lines can be emptied without loss. In a line that counts
as an arrow line some arrow is always found, and the arrows that are found do not overlap. -/
namespace PlainMath.Arrow
open Text

section
variable {text label : List Char} {length : Nat}

theorem head?_le (found : head? text = some length) : length ≤ text.length := by
  simp only [head?] at found
  split at found
  · rename_i both
    cases found
    exact (List.getElem?_eq_some_iff.mp both.2).1
  · cases found

theorem label?_le (found : label? text = some (label, length)) : length ≤ text.length := by
  induction text generalizing label length with
  | nil => cases found
  | cons c rest ih =>
    rw [label?] at found
    split at found
    · rename_i head
      cases found
      exact head?_le head
    · split at found
      · cases found
      · obtain ⟨inner, read, same⟩ := Option.map_eq_some_iff.mp found
        cases same
        exact Nat.succ_le_succ (ih read)

theorem arrow?_le (found : arrow? text = some (label, length)) : length ≤ text.length := by
  unfold arrow? at found
  split at found
  · rename_i rest
    dsimp only at found
    split at found
    · cases found
    · rename_i long
      have room : dashes rest ≤ rest.length := (List.takeWhile_prefix _).length_le
      split at found
      · rename_i inner size read
        cases found
        have := label?_le read
        rw [List.length_drop] at this
        rw [List.length_cons]
        omega
      · split at found
        · rename_i both
          cases found
          have := (List.getElem?_eq_some_iff.mp both.2).1
          rw [List.length_cons]
          omega
        · cases found
  · cases found

end

theorem spans_within (column : Nat) (text : List Char) :
    ∀ span ∈ spans column text, column ≤ span.start ∧ span.stop ≤ column + text.length := by
  fun_induction spans column text with
  | case1 => simp
  | case2 column c rest label length found ih =>
    have room := arrow?_le found
    have pos := arrow?_pos found
    simp only [List.length_drop, List.length_cons] at ih room ⊢
    refine List.forall_mem_cons.mpr ⟨⟨Nat.le_refl _, by dsimp only; omega⟩, fun span member => ?_⟩
    have := ih span member
    omega
  | case3 column c rest _ ih =>
    intro span member
    have := ih span member
    rw [List.length_cons]
    omega

theorem spans_pairwise (column : Nat) (text : List Char) :
    (spans column text).Pairwise fun first second => first.stop ≤ second.start := by
  fun_induction spans column text with
  | case1 => exact .nil
  | case2 column c rest label length found ih =>
    exact .cons (fun span member => (spans_within _ _ span member).1) ih
  | case3 column c rest _ ih => exact ih

theorem label?_isSome {front : List Char} (single : '\n' ∉ front) (behind : List Char) :
    (label? (front ++ ("-->".toList ++ behind))).isSome = true := by
  induction front with
  | nil =>
    have head : head? ("-->".toList ++ behind) = some 3 :=
      head?_replicate (Nat.le_refl 2) behind
    rw [List.nil_append, label?_of_head head]
    rfl
  | cons c front ih =>
    rw [List.mem_cons, not_or] at single
    rw [List.cons_append]
    cases head : head? (c :: (front ++ ("-->".toList ++ behind))) with
    | some length =>
      rw [label?_of_head head]
      rfl
    | none => rw [label?_cons head (Ne.symm single.1), Option.isSome_map, ih single.2]

theorem exists_dashes (text : List Char) :
    ∃ count rest, text = List.replicate count '-' ++ rest ∧ rest.head? ≠ some '-' := by
  induction text with
  | nil => exact ⟨0, [], rfl, by simp⟩
  | cons c text ih =>
    by_cases dash : c = '-'
    · obtain ⟨count, rest, rfl, other⟩ := ih
      exact ⟨count + 1, rest, by simp [dash, List.replicate_succ], other⟩
    · exact ⟨0, c :: text, rfl, by simpa using dash⟩

theorem arrow?_isSome {inner : List Char} (single : '\n' ∉ inner) (behind : List Char) :
    (arrow? ("<--".toList ++ (inner ++ ("-->".toList ++ behind)))).isSome = true := by
  -- if there is no other, the dashes of both heads make an arrow
  obtain ⟨count, rest, rfl, other⟩ := exists_dashes inner
  rcases rest with _ | ⟨c, rest⟩
  · have spelled : "<--".toList ++ (List.replicate count '-' ++ [] ++ ("-->".toList ++ behind)) =
        '<' :: (List.replicate (2 + count + 2) '-' ++ '>' :: behind) := by
      rw [List.append_nil, List.replicate_add, List.replicate_add, List.append_assoc,
        List.append_assoc]
      rfl
    rw [spelled]
    cases read : label? ('>' :: behind) with
    | none => rw [arrow?_of_none (by omega) read]; rfl
    | some found => rw [arrow?_of_label? (by omega) (by simp) read]; rfl
  · have spelled : "<--".toList ++
        (List.replicate count '-' ++ c :: rest ++ ("-->".toList ++ behind)) =
          '<' :: (List.replicate (count + 2) '-' ++ (c :: rest ++ ("-->".toList ++ behind))) := by
      simp [List.replicate_succ]
    have single' : '\n' ∉ c :: rest := fun member => single (List.mem_append_right _ member)
    obtain ⟨found, read⟩ := Option.isSome_iff_exists.mp (label?_isSome single' behind)
    rw [spelled, arrow?_of_label? (by omega) (by simpa using other) read]
    rfl

theorem spans_ne_nil {line : List Char} (single : '\n' ∉ line) (arrow : isArrowLine line = true)
    (column : Nat) : spans column line ≠ [] := by
  obtain ⟨lead, inner, tail, blank, _, rfl⟩ := (isArrowLine_iff single).mp arrow
  have free : '\n' ∉ inner := fun member => single (by simp [member])
  obtain ⟨found, read⟩ := Option.isSome_iff_exists.mp (arrow?_isSome free tail)
  have spelled : ("<--".toList ++ (inner ++ "-->".toList)) ++ tail =
      '<' :: ("--".toList ++ (inner ++ ("-->".toList ++ tail))) := by simp
  rw [spelled, spans_append (not_mem_of_isBlankText blank rfl), spans]
  have read : arrow? ('<' :: ("--".toList ++ (inner ++ ("-->".toList ++ tail)))) = some found := read
  rw [read]
  exact List.cons_ne_nil _ _

def isExpression (line : List Char) : Bool := !isBlankText line && !isArrowLine line

structure IsStack (above stack below : List (List Char)) : Prop where
  shown : stack ≠ []
  arrows : ∀ line ∈ stack, isArrowLine line = true
  top : above.getLast?.any isArrowLine = false
  bottom : below.head?.any isArrowLine = false

/-- The line directly above a stack if it is not blank, and otherwise the first line below that is
neither blank nor an arrow line. -/
def stackTarget? (above stack below : List (List Char)) : Option (Side × Nat) :=
  if above.getLast?.any fun line => !isBlankText line then
    some (.under, above.length - 1)
  else
    (below.findIdx? isExpression).map fun offset => (.over, above.length + stack.length + offset)

section
variable {above stack below : List (List Char)}

theorem stackTop_stack (isStack : IsStack above stack below) {offset : Nat}
    (inside : offset < stack.length) :
    stackTop (above ++ (stack ++ below)) (above.length + offset) = above.length := by
  induction offset with
  | zero =>
    rcases List.eq_nil_or_concat above with rfl | ⟨front, last, rfl⟩
    · rfl
    · have top : isArrowLine last = false := by simpa using isStack.top
      simp [stackTop, top]
  | succ offset ih =>
    have here : (above ++ (stack ++ below))[above.length + offset]? = stack[offset]? := by
      rw [List.getElem?_append_right (by omega), List.getElem?_append_left (by omega)]
      simp
    have arrow : (stack[offset]?).any isArrowLine = true := by
      rw [List.getElem?_eq_getElem (by omega), Option.any_some]
      exact isStack.arrows _ (List.getElem_mem _)
    rw [← Nat.add_assoc, stackTop, here, if_pos arrow]
    exact ih (by omega)

theorem findIdx?_below (isStack : IsStack above stack below) {offset : Nat}
    (inside : offset < stack.length) :
    ((above ++ (stack ++ below)).drop (above.length + offset + 1)).findIdx? isExpression =
      (below.findIdx? isExpression).map (· + (stack.length - (offset + 1))) := by
  have rest : (above ++ (stack ++ below)).drop (above.length + offset + 1) =
      stack.drop (offset + 1) ++ below := by
    rw [Nat.add_assoc, List.drop_length_add_append, List.drop_append_of_le_length inside]
  have passed : (stack.drop (offset + 1)).findIdx? isExpression = none := by
    refine List.findIdx?_eq_none_iff.mpr fun line member => ?_
    simp [isExpression, isStack.arrows line (List.mem_of_mem_drop member)]
  rw [rest, List.findIdx?_append, passed, Option.none_or, List.length_drop]

theorem target?_stack (isStack : IsStack above stack below) {offset : Nat}
    (inside : offset < stack.length) :
    target? (above ++ (stack ++ below)) (above.length + offset) =
      stackTarget? above stack below := by
  have later := findIdx?_below isStack inside
  have fromBelow : (((above ++ (stack ++ below)).drop (above.length + offset + 1)).findIdx?
      isExpression).map (fun found => (Side.over, above.length + offset + 1 + found)) =
        (below.findIdx? isExpression).map fun found =>
          (Side.over, above.length + stack.length + found) := by
    rw [later, Option.map_map]
    congr 1
    funext found
    simp only [Function.comp_apply]
    congr 1
    omega
  simp only [target?, stackTop_stack isStack inside, stackTarget?]
  rcases List.eq_nil_or_concat above with rfl | ⟨front, last, rfl⟩
  · rw [if_pos (by simp), if_neg (by simp)]
    exact fromBelow
  · have here : (front.concat last ++ (stack ++ below))[(front.concat last).length - 1]? =
        some last := by simp
    rw [here]
    cases blank : isBlankText last with
    | true =>
      rw [if_pos (by simp [blank]), if_neg (by simp [blank])]
      exact fromBelow
    | false => rw [if_neg (by simp [blank]), if_pos (by simp [blank])]

theorem isExpression_of_stackTarget? (isStack : IsStack above stack below) {side : Side}
    {target : Nat} (found : stackTarget? above stack below = some (side, target)) :
    ∃ line, (above ++ (stack ++ below))[target]? = some line ∧ isExpression line = true := by
  unfold stackTarget? at found
  split at found
  · rename_i shown
    cases found
    rcases List.eq_nil_or_concat above with rfl | ⟨front, last, rfl⟩
    · cases shown
    · have top : isArrowLine last = false := by simpa using isStack.top
      have shown : isBlankText last = false := by simpa using shown
      exact ⟨last, by simp, by simp [isExpression, top, shown]⟩
  · obtain ⟨offset, first, same⟩ := Option.map_eq_some_iff.mp found
    cases same
    obtain ⟨inside, here, _⟩ := List.findIdx?_eq_some_iff_getElem.mp first
    refine ⟨below[offset], ?_, here⟩
    rw [List.getElem?_append_right (by omega), List.getElem?_append_right (by omega),
      List.getElem?_eq_some_iff]
    exact ⟨by omega, by congr 1; omega⟩

end

theorem any_head?_dropWhile (lines : List (List Char)) :
    (lines.dropWhile isArrowLine).head?.any isArrowLine = false := by
  have other := List.head?_dropWhile_not isArrowLine lines
  cases found : (lines.dropWhile isArrowLine).head? with
  | none => rfl
  | some line => simpa [found] using other

theorem isStack_around {line : List Char} (arrow : isArrowLine line = true)
    (front behind : List (List Char)) :
    IsStack (front.reverse.dropWhile isArrowLine).reverse
      ((front.reverse.takeWhile isArrowLine).reverse ++
        line :: behind.takeWhile isArrowLine)
      (behind.dropWhile isArrowLine) where
  shown := by simp
  arrows other member := by
  -- the arrow lines in front are met from the last one up
    simp only [List.mem_append, List.mem_reverse, List.mem_cons] at member
    rcases member with member | rfl | member
    · exact List.mem_takeWhile_imp member
    · exact arrow
    · exact List.mem_takeWhile_imp member
  top := by
    rw [List.getLast?_reverse]
    exact any_head?_dropWhile _
  bottom := any_head?_dropWhile _

theorem exists_isStack {lines : List (List Char)} {line : List Char} {index : Nat}
    (here : lines[index]? = some line) (arrow : isArrowLine line = true) :
    ∃ above stack below offset, IsStack above stack below ∧ lines = above ++ (stack ++ below) ∧
      offset < stack.length ∧ index = above.length + offset := by
  obtain ⟨inside, rfl⟩ := List.getElem?_eq_some_iff.mp here
  have cut : lines.take index ++ lines[index] :: lines.drop (index + 1) = lines := by simp
  have size : (lines.take index).length = index := List.length_take_of_le (Nat.le_of_lt inside)
  generalize lines.take index = front at cut size
  generalize lines.drop (index + 1) = behind at cut
  have apart : (front.reverse.dropWhile isArrowLine).reverse ++
      (front.reverse.takeWhile isArrowLine).reverse = front := by
    rw [← List.reverse_append, List.takeWhile_append_dropWhile, List.reverse_reverse]
  refine ⟨_, _, _, (front.reverse.takeWhile isArrowLine).reverse.length,
    isStack_around arrow front behind, ?_, by simp, ?_⟩
  · rw [List.append_assoc, List.cons_append, List.takeWhile_append_dropWhile,
      ← List.append_assoc, apart, cut]
  · rw [← List.length_append, apart, size]

section
variable {lines : List (List Char)} {line : List Char} {index target : Nat} {side : Side}

theorem isExpression_of_target? (here : lines[index]? = some line)
    (arrow : isArrowLine line = true) (found : target? lines index = some (side, target)) :
    ∃ labelled, lines[target]? = some labelled ∧ isExpression labelled = true := by
  obtain ⟨above, stack, below, offset, isStack, rfl, inside, rfl⟩ := exists_isStack here arrow
  rw [target?_stack isStack inside] at found
  exact isExpression_of_stackTarget? isStack found

theorem isExpression_of_mem_marks {mark : Mark} (member : mark ∈ marks lines) :
    ∃ labelled, lines[mark.line]? = some labelled ∧ isExpression labelled = true := by
  obtain ⟨own, listed, member⟩ := List.mem_flatten.mp member
  obtain ⟨⟨line, index⟩, numbered, rfl⟩ := List.mem_map.mp listed
  have here := List.mk_mem_zipIdx_iff_getElem?.mp numbered
  simp only [lineMarks] at member
  split at member
  · rename_i arrow
    split at member
    · rename_i found
      obtain ⟨span, _, rfl⟩ := List.mem_map.mp member
      exact isExpression_of_target? here arrow found
    · cases member
  · cases member

end

theorem mem_arrowLines {text : List Char} {index : Nat} :
    index ∈ (braced text).arrowLines ↔
      ∃ line, (Text.lines text)[index]? = some line ∧ isArrowLine line = true := by
  simp only [braced, List.mem_map, List.mem_filter]
  constructor
  · rintro ⟨⟨line, index⟩, ⟨numbered, arrow⟩, rfl⟩
    exact ⟨line, List.mk_mem_zipIdx_iff_getElem?.mp numbered, arrow⟩
  · rintro ⟨line, here, arrow⟩
    exact ⟨(line, index), ⟨List.mk_mem_zipIdx_iff_getElem?.mpr here, arrow⟩, rfl⟩

theorem touching_arrowLine {drawn : List (List Char)} {line : List Char} {index : Nat}
    (here : drawn[index]? = some line) (arrow : isArrowLine line = true) (length : Nat) :
    touching (widestFirst (marks drawn)) index length = [] := by
  refine List.filter_eq_nil_iff.mpr fun mark member touch => ?_
  obtain ⟨labelled, there, other⟩ := isExpression_of_mem_marks (List.mem_mergeSort.mp member)
  rw [(of_decide_eq_true touch).1, here] at there
  cases there
  simp [isExpression, arrow] at other

theorem arrowLine_untouched {text : List Char} {index : Nat}
    (listed : index ∈ (braced text).arrowLines) :
    (braced text).lines[index]? = (Text.lines text)[index]? ∧
      ∀ insertion ∈ (braced text).insertions, insertion.line ≠ index := by
  obtain ⟨line, here, arrow⟩ := mem_arrowLines.mp listed
  have untouched := touching_arrowLine here arrow
  have wide : ∀ mark ∈ widestFirst (marks (Text.lines text)), mark.start < mark.stop :=
    fun mark member => marks_wide (Text.lines text) mark (List.mem_mergeSort.mp member)
  have placed := Placed.foldl_mark (widestFirst (marks (Text.lines text))) []
    ⟨Text.lines text, []⟩ (.start _) wide
  have undoable := Undoable.foldl_mark (widestFirst (marks (Text.lines text))) []
    ⟨Text.lines text, []⟩ (.start _) (.start _) wide
  constructor
  · rw [braced, placed.lines]
    simp only [List.nil_append, untouched, interleave_nil]
    exact Option.map_id' ..
  · have recorded := undoable.recorded index
    rw [List.nil_append, untouched, List.map_nil, List.map_eq_nil_iff,
      List.filter_eq_nil_iff] at recorded
    exact fun insertion member own => recorded insertion member (by simpa using own)

section
variable {lines : List (List Char)} {line : List Char} {index target : Nat} {side : Side}

theorem lineMarks_ordered (single : '\n' ∉ line) (arrow : isArrowLine line = true)
    (found : target? lines index = some (side, target)) :
    lineMarks lines line index ≠ [] ∧
      ((lineMarks lines line index).Pairwise fun first second => first.stop ≤ second.start) ∧
      ∀ mark ∈ lineMarks lines line index, mark.side = side ∧ mark.line = target ∧
        mark.start < mark.stop ∧ mark.stop ≤ line.length := by
  rw [lineMarks_of_target arrow found]
  refine ⟨?_, List.pairwise_map.mpr (spans_pairwise 0 line), fun mark member => ?_⟩
  · rw [ne_eq, List.map_eq_nil_iff]
    exact spans_ne_nil single arrow 0
  · obtain ⟨span, found, rfl⟩ := List.mem_map.mp member
    have inside := (spans_within 0 line span found).2
    rw [Nat.zero_add] at inside
    exact ⟨rfl, rfl, spans_wide 0 line span found, inside⟩

end

/-- All lines of a stack of arrow lines have one target, or none has any: the line directly above
the stack if there is one that is not blank, and otherwise the first line below that is neither
blank nor an arrow line. No target is blank or an arrow line, and an arrow line with a target has
marks inside it that follow on each other. So what is written into lines is never emptied with the
arrow lines. -/
theorem stacks_share_target {lines : List (List Char)} (single : ∀ line ∈ lines, '\n' ∉ line) :
    (∀ above stack below, IsStack above stack below → lines = above ++ (stack ++ below) →
      ∀ offset < stack.length,
        target? lines (above.length + offset) = stackTarget? above stack below) ∧
    (∀ index line side target, lines[index]? = some line → isArrowLine line = true →
      target? lines index = some (side, target) →
      (∃ labelled, lines[target]? = some labelled ∧ isBlankText labelled = false ∧
        isArrowLine labelled = false) ∧
      lineMarks lines line index <:+: marks lines ∧ lineMarks lines line index ≠ [] ∧
      ((lineMarks lines line index).Pairwise fun first second => first.stop ≤ second.start) ∧
      ∀ mark ∈ lineMarks lines line index, mark.side = side ∧ mark.line = target ∧
        mark.start < mark.stop ∧ mark.stop ≤ line.length) ∧
    ∀ index ∈ (braced (join ['\n'] lines)).arrowLines,
      (braced (join ['\n'] lines)).lines[index]? = lines[index]? ∧
      ∀ insertion ∈ (braced (join ['\n'] lines)).insertions, insertion.line ≠ index := by
  refine ⟨?_, ?_, ?_⟩
  · rintro above stack below isStack rfl offset inside
    exact target?_stack isStack inside
  · intro index line side target here arrow found
    obtain ⟨labelled, there, shown⟩ := isExpression_of_target? here arrow found
    refine ⟨⟨labelled, there, by simpa [isExpression] using shown⟩, lineMarks_among_marks here, ?_⟩
    exact lineMarks_ordered (single line (List.mem_of_getElem? here)) arrow found
  · intro index listed
    rcases eq_or_ne lines [] with rfl | shown
    · obtain ⟨line, here, arrow⟩ := mem_arrowLines.mp listed
      have only : Text.lines (join ['\n'] []) = [[]] := lines_single List.not_mem_nil
      rw [only] at here
      cases List.mem_singleton.mp (List.mem_of_getElem? here)
      exact absurd arrow (by decide)
    · have untouched := arrowLine_untouched listed
      rwa [lines_join shown single] at untouched

theorem stacks_share_target_over :
    IsStack [[]] ["<-- a -->".toList, "<---->".toList] [[], "x + y".toList] ∧
    (∀ offset < 2, target? [[], "<-- a -->".toList, "<---->".toList, [], "x + y".toList]
      (1 + offset) = some (.over, 4)) ∧
    lineMarks [[], "<-- a -->".toList, "<---->".toList, [], "x + y".toList]
      "<---->".toList 2 ≠ [] := by
  have single : ∀ line ∈ [[], "<-- a -->".toList, "<---->".toList, [], "x + y".toList],
      '\n' ∉ line := by simp
  have isStack : IsStack [[]] ["<-- a -->".toList, "<---->".toList] [[], "x + y".toList] :=
    ⟨by simp, by decide, by decide, by decide⟩
  obtain ⟨shared, marked, _⟩ := stacks_share_target single
  have target := shared _ _ _ isStack rfl
  refine ⟨isStack, fun offset inside => (target offset inside).trans (by decide), ?_⟩
  exact (marked 2 _ .over 4 rfl (by decide) ((target 1 (by decide)).trans (by decide))).2.2.1

end PlainMath.Arrow
