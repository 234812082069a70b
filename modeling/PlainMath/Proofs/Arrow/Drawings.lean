import PlainMath.Proofs.Arrow.Written

/-! Several arrows in one line. An arrow with something between its dashes is found where it is
drawn. The dashes of an arrow without a label are all taken for those of its left head, and the
search for a right head goes on behind it: the arrow is found together with the next one, and only
at the end of the line by itself. -/
namespace PlainMath.Arrow
open Text

structure Drawing where
  gap : List Char
  left : Nat
  label : List Char
  right : Nat
  blank : isBlankText gap = true
  long : 2 ≤ left
  long' : 2 ≤ right
  plain : ∀ c ∈ ['<', '>', '-'], c ∉ label

namespace Drawing

def arrow (drawing : Drawing) : List Char :=
  arrowText drawing.left drawing.label drawing.right

def text (drawing : Drawing) : List Char := drawing.gap ++ drawing.arrow

/-- What would be a label if it began in front of the left dashes: where there is nothing between
the dashes, all of them are right ones. -/
def inner (drawing : Drawing) : List Char :=
  if drawing.label = [] then [] else List.replicate drawing.left '-' ++ drawing.label

/-- What an arrow without label takes for its label when this one follows it: from its own right
head up to the right dashes of this one. -/
def swallowed (drawing : Drawing) : List Char :=
  '>' :: (drawing.gap ++ '<' :: drawing.inner)

theorem not_mem_gap (drawing : Drawing) {c : Char} (shown : isBlank c = false) :
    c ∉ drawing.gap := not_mem_of_isBlankText drawing.blank shown

theorem dashless (drawing : Drawing) : '-' ∉ drawing.label := drawing.plain '-' (by simp)

theorem length_text_pos (drawing : Drawing) : 0 < drawing.text.length := by
  rw [text, List.length_append, arrow, length_arrowText]
  omega

end Drawing

def rowText (row : List Drawing) (tail : List Char) : List Char :=
  row.flatMap Drawing.text ++ tail

def drawnSpans (column : Nat) : List Drawing → List Span
  | [] => []
  | drawing :: row =>
    ⟨column + drawing.gap.length, column + drawing.text.length, trim drawing.label⟩ ::
      drawnSpans (column + drawing.text.length) row

/-- Where arrows are found: without a label an arrow goes together with the next one. -/
def foundSpans (column : Nat) : List Drawing → List Span
  | [] => []
  | [drawing] => drawnSpans column [drawing]
  | drawing :: next :: row =>
    if drawing.label = [] then
      ⟨column + drawing.gap.length, column + drawing.text.length + next.text.length,
          trim next.swallowed⟩ ::
        foundSpans (column + drawing.text.length + next.text.length) row
    else
      ⟨column + drawing.gap.length, column + drawing.text.length, trim drawing.label⟩ ::
        foundSpans (column + drawing.text.length) (next :: row)

theorem label?_eq_none {text : List Char} (dashless : '-' ∉ text) : label? text = none := by
  induction text with
  | nil => rfl
  | cons c text ih =>
    rw [List.mem_cons, not_or] at dashless
    rw [label?, head?_eq_none (Ne.symm dashless.1), ih dashless.2]
    simp

theorem label?_replicate (count : Nat) {c : Char} (other : c ≠ '-') (other' : c ≠ '>')
    (rest : List Char) : label? (List.replicate count '-' ++ c :: rest) =
      (label? (c :: rest)).map (lengthen (List.replicate count '-')) := by
  induction count with
  | zero => exact (map_lengthen_nil _).symm
  | succ count ih =>
    have size : dashes (List.replicate (count + 1) '-' ++ c :: rest) = count + 1 :=
      dashes_replicate _ (by simpa using other)
    have headless : head? (List.replicate (count + 1) '-' ++ c :: rest) = none := by
      simp [head?, size, other']
    rw [List.replicate_succ, List.cons_append] at headless ⊢
    rw [label?_cons headless (by decide), ih, map_lengthen_lengthen, List.singleton_append]

theorem label?_inner (drawing : Drawing) (single : '\n' ∉ drawing.label) (behind : List Char) :
    label? (List.replicate drawing.left '-' ++
      (drawing.label ++ (List.replicate drawing.right '-' ++ '>' :: behind))) =
        some (drawing.inner, drawing.left + drawing.label.length + drawing.right + 1) := by
  have dashless := drawing.dashless
  have plain := drawing.plain '>' (by simp)
  obtain ⟨gap, left, label, right, _, long, long', _⟩ := drawing
  dsimp only at single dashless plain ⊢
  cases label with
  | nil =>
    have head := head?_replicate (show 2 ≤ left + right by omega) behind
    rw [List.nil_append, ← List.append_assoc, List.replicate_append_replicate, label?_of_head head]
    rfl
  | cons c label =>
    have other : c ≠ '-' ∧ c ≠ '>' :=
      ⟨fun same => dashless (by simp [same]), fun same => plain (by simp [same])⟩
    have read := label?_append single dashless (List.replicate right '-' ++ '>' :: behind)
    rw [label?_of_head (head?_replicate long' behind), List.cons_append] at read
    rw [List.cons_append, label?_replicate _ other.1 other.2, read]
    simp only [Option.map_some, lengthen, List.append_nil, List.length_cons, List.length_replicate,
      Drawing.inner, reduceCtorEq, if_false, Option.some.injEq, Prod.mk.injEq, true_and]
    omega

theorem label?_swallowed (next : Drawing) (single : '\n' ∉ next.gap) (single' : '\n' ∉ next.label)
    (behind : List Char) : label? ('>' :: (next.text ++ behind)) =
      some (next.swallowed, next.text.length + 1) := by
  have front : '\n' ∉ '>' :: (next.gap ++ ['<']) := by simp [single]
  have front' : '-' ∉ '>' :: (next.gap ++ ['<']) := by simp [next.not_mem_gap (c := '-') rfl]
  have spelled : '>' :: (next.text ++ behind) = '>' :: (next.gap ++ ['<']) ++
      (List.replicate next.left '-' ++
        (next.label ++ (List.replicate next.right '-' ++ '>' :: behind))) := by
    simp [Drawing.text, Drawing.arrow, arrowText]
  rw [spelled, label?_append front front', label?_inner next single']
  simp only [Option.map_some, lengthen, List.cons_append, List.append_assoc, List.nil_append,
    List.length_cons, List.length_append, List.length_nil, Drawing.swallowed, Drawing.text,
    Drawing.arrow, length_arrowText, Option.some.injEq, Prod.mk.injEq, true_and]
  omega

theorem arrowText_nil_append (left right : Nat) (behind : List Char) :
    arrowText left [] right ++ behind =
      '<' :: (List.replicate (left + right) '-' ++ '>' :: behind) := by
  simp [arrowText, ← List.replicate_append_replicate]

theorem arrow?_next {drawing next : Drawing} (unlabelled : drawing.label = [])
    (single : '\n' ∉ next.gap) (single' : '\n' ∉ next.label) (behind : List Char) :
    arrow? (drawing.arrow ++ (next.text ++ behind)) =
      some (next.swallowed, (drawing.arrow ++ next.text).length) := by
  have long := drawing.long
  rw [Drawing.arrow, unlabelled, arrowText_nil_append,
    arrow?_of_label? (by omega) (by simp) (label?_swallowed next single single' behind),
    List.length_append, length_arrowText]
  simp only [List.length_nil, Option.some.injEq, Prod.mk.injEq, true_and]
  omega

theorem arrow?_of_none {count : Nat} {behind : List Char} (long : 4 ≤ count)
    (unread : label? ('>' :: behind) = none) :
    arrow? ('<' :: (List.replicate count '-' ++ '>' :: behind)) = some ([], count + 2) := by
  have size : dashes (List.replicate count '-' ++ '>' :: behind) = count :=
    dashes_replicate count (by simp)
  rw [arrow?]
  simp only [size, List.drop_left' List.length_replicate, unread]
  rw [if_neg (by omega), if_pos ⟨long, by simp⟩, Nat.add_comm 1]

theorem arrow?_last {drawing : Drawing} (single : '\n' ∉ drawing.label) {tail : List Char}
    (blank : isBlankText tail = true) :
    arrow? (drawing.arrow ++ tail) = some (drawing.label, drawing.arrow.length) := by
  rcases eq_or_ne drawing.label [] with unlabelled | labelled
  · have dashless : '-' ∉ '>' :: tail := by
      simp [not_mem_of_isBlankText blank (show isBlank '-' = false from rfl)]
    have long := drawing.long
    have long' := drawing.long'
    rw [Drawing.arrow, unlabelled, arrowText_nil_append,
      arrow?_of_none (by omega) (label?_eq_none dashless), length_arrowText]
    rfl
  · exact arrow?_arrowText drawing.long drawing.long' labelled single drawing.dashless tail

theorem spans_text {drawing : Drawing} {behind label : List Char} (more : List Char)
    (found : arrow? (drawing.arrow ++ more ++ behind) =
      some (label, (drawing.arrow ++ more).length)) (column : Nat) :
    spans column (drawing.text ++ (more ++ behind)) =
      ⟨column + drawing.gap.length, column + drawing.text.length + more.length, trim label⟩ ::
        spans (column + drawing.text.length + more.length) behind := by
  have shown : drawing.arrow ++ more ≠ [] := List.append_ne_nil_of_left_ne_nil arrowText_ne_nil _
  rw [Drawing.text, List.append_assoc, spans_append (drawing.not_mem_gap rfl),
    ← List.append_assoc drawing.arrow, spans_arrow shown found]
  simp only [List.length_append, Nat.add_assoc]

theorem spans_own {drawing : Drawing} {behind : List Char}
    (found : arrow? (drawing.arrow ++ behind) = some (drawing.label, drawing.arrow.length))
    (column : Nat) : spans column (drawing.text ++ behind) =
      ⟨column + drawing.gap.length, column + drawing.text.length, trim drawing.label⟩ ::
        spans (column + drawing.text.length) behind :=
  spans_text [] (by rwa [List.append_nil]) column

theorem spans_blank {tail : List Char} (blank : isBlankText tail = true) (column : Nat) :
    spans column tail = [] := by
  rw [← List.append_nil tail, spans_append (not_mem_of_isBlankText blank rfl), spans]

theorem spans_rowText (column : Nat) (row : List Drawing) {tail : List Char}
    (blank : isBlankText tail = true) (single : ∀ drawing ∈ row, '\n' ∉ drawing.label)
    (single' : ∀ drawing ∈ row.tail, '\n' ∉ drawing.gap) :
    spans column (rowText row tail) = foundSpans column row := by
  fun_induction foundSpans column row with
  | case1 column => exact spans_blank blank column
  | case2 column drawing =>
    have read := spans_own (arrow?_last (single drawing (by simp)) blank) column
    rw [spans_blank blank] at read
    simpa [rowText, drawnSpans] using read
  | case3 column drawing next row unlabelled ih =>
    have found := arrow?_next unlabelled (single' next (by simp)) (single next (by simp))
      (rowText row tail)
    rw [← List.append_assoc] at found
    have read := spans_text next.text found column
    rw [ih (fun other member => single other (by simp [member]))
      (fun other member => single' other (by simp [List.mem_of_mem_tail member]))] at read
    simpa [rowText] using read
  | case4 column drawing next row labelled ih =>
    have found := arrow?_arrowText drawing.long drawing.long' labelled
      (single drawing (by simp)) drawing.dashless (rowText (next :: row) tail)
    have read := spans_own found column
    rw [ih (fun other member => single other (List.mem_cons_of_mem _ member))
      (fun other member => single' other (List.mem_cons_of_mem _ member))] at read
    simpa [rowText] using read

theorem foundSpans_eq_drawnSpans_iff (column : Nat) (row : List Drawing) :
    foundSpans column row = drawnSpans column row ↔
      ∀ drawing ∈ row.dropLast, drawing.label ≠ [] := by
  fun_induction foundSpans column row with
  | case1 column => simp [drawnSpans]
  | case2 column drawing => simp
  | case3 column drawing next row unlabelled ih =>
    have longer := next.length_text_pos
    refine iff_of_false (fun same => ?_) (fun labelled => labelled drawing (by simp) unlabelled)
    have stop := congrArg Span.stop (List.cons_eq_cons.mp same).1
    dsimp only at stop
    omega
  | case4 column drawing next row labelled ih =>
    rw [drawnSpans, List.cons_eq_cons, ih, List.dropLast_cons_cons, List.forall_mem_cons]
    simp [labelled]

theorem prefix_arrow (drawing : Drawing) : "<--".toList <+: drawing.arrow := by
  obtain ⟨more, left⟩ := Nat.exists_eq_add_of_le' drawing.long
  rw [Drawing.arrow, left, arrowText, List.replicate_succ, List.replicate_succ]
  exact ⟨_, rfl⟩

theorem suffix_arrow (drawing : Drawing) : "-->".toList <:+ drawing.arrow := by
  obtain ⟨more, right⟩ := Nat.exists_eq_add_of_le' drawing.long'
  rw [Drawing.arrow, right, arrowText, List.replicate_add]
  exact ⟨'<' :: (List.replicate drawing.left '-' ++ (drawing.label ++ List.replicate more '-')),
    by simp⟩

theorem suffix_row (drawing : Drawing) (more : List Drawing) :
    "-->".toList <:+ drawing.arrow ++ more.flatMap Drawing.text := by
  induction more using List.reverseRecOn with
  | nil => simpa using suffix_arrow drawing
  | append_singleton more last _ =>
    refine (suffix_arrow last).trans ⟨drawing.arrow ++ (more.flatMap Drawing.text ++ last.gap), ?_⟩
    simp [Drawing.text]

theorem trim_rowText (drawing : Drawing) (more : List Drawing) {tail : List Char}
    (blank : isBlankText tail = true) : trim (rowText (drawing :: more) tail) =
      drawing.arrow ++ more.flatMap Drawing.text := by
  obtain ⟨behind, front⟩ := prefix_arrow drawing
  obtain ⟨before, back⟩ := suffix_row drawing more
  have spelled : rowText (drawing :: more) tail =
      drawing.gap ++ (drawing.arrow ++ more.flatMap Drawing.text ++ tail) := by
    simp [rowText, Drawing.text]
  rw [spelled]
  refine trim_append drawing.blank blank ?_ ?_ ?_
  · rw [← front]
    simp
  · rw [← front]
    rintro c ⟨⟩
    rfl
  · rw [← back, List.getLast?_append]
    rintro c ⟨⟩
    rfl

theorem isArrowLine_rowText {row : List Drawing} (shown : row ≠ []) {tail : List Char}
    (blank : isBlankText tail = true) :
    isArrowLine (rowText row tail) = true ↔ '\n' ∉ trim (rowText row tail) := by
  cases row with
  | nil => exact absurd rfl shown
  | cons drawing more =>
    have front := (prefix_arrow drawing).trans
      (List.prefix_append _ (more.flatMap Drawing.text))
    have size : 6 ≤ (drawing.arrow ++ more.flatMap Drawing.text).length := by
      have long := drawing.long
      have long' := drawing.long'
      rw [List.length_append, Drawing.arrow, length_arrowText]
      omega
    rw [isArrowLine, trim_rowText drawing more blank]
    simp only [Bool.and_eq_true, List.isPrefixOf_iff_prefix, List.isSuffixOf_iff_suffix,
      decide_eq_true_eq, Bool.not_eq_true', List.contains_eq_mem, decide_eq_false_iff_not]
    exact ⟨fun arrow => arrow.2, fun free => ⟨⟨⟨front, suffix_row drawing more⟩, size⟩, free⟩⟩

def Span.mark (side : Side) (target : Nat) (span : Span) : Mark :=
  ⟨side, target, span.start, span.stop, span.label⟩

theorem lineMarks_of_target {lines : List (List Char)} {line : List Char} {index target : Nat}
    {side : Side} (arrow : isArrowLine line = true)
    (found : target? lines index = some (side, target)) :
    lineMarks lines line index = (spans 0 line).map (Span.mark side target) := by
  rw [lineMarks, if_pos arrow, found]
  rfl

theorem lineMarks_among_marks {lines : List (List Char)} {line : List Char} {index : Nat}
    (here : lines[index]? = some line) : lineMarks lines line index <:+: marks lines :=
  List.infix_of_mem_flatten
    (List.mem_map.mpr ⟨(line, index), List.mk_mem_zipIdx_iff_getElem?.mpr here, rfl⟩)

theorem Span.mark_injective (side : Side) (target : Nat) :
    Function.Injective (Span.mark side target) := by
  rintro ⟨start, stop, label⟩ ⟨start', stop', label'⟩ same
  simpa [Span.mark] using same

section
variable {lines : List (List Char)} {index target : Nat} {side : Side} {row : List Drawing}
  {tail : List Char}

theorem lineMarks_rowText (shown : row ≠ []) (blank : isBlankText tail = true)
    (found : target? lines index = some (side, target)) (single : '\n' ∉ trim (rowText row tail)) :
    lineMarks lines (rowText row tail) index =
      (foundSpans 0 row).map (Span.mark side target) := by
  rw [lineMarks_of_target ((isArrowLine_rowText shown blank).mpr single) found]
  cases row with
  | nil => exact absurd rfl shown
  | cons drawing more =>
    have labelInside (other : Drawing) : other.label ⊆ other.arrow := fun c member => by
      simp [Drawing.arrow, arrowText, member]
    rw [trim_rowText drawing more blank, List.mem_append, not_or, List.mem_flatMap] at single
    have later (other : Drawing) (member : other ∈ more) : '\n' ∉ other.text :=
      fun found => single.2 ⟨other, member, found⟩
    rw [spans_rowText 0 (drawing :: more) blank]
    · refine List.forall_mem_cons.mpr ⟨fun found => single.1 (labelInside drawing found), ?_⟩
      exact fun other member found =>
        later other member (List.mem_append_right _ (labelInside other found))
    · exact fun other member found => later other member (List.mem_append_left _ found)

/-- In a line that is made of arrows and blanks, each arrow is found where it is drawn and with
its own label exactly when all arrows but the last one have something between their dashes and no
line break stands between them, as is so in every line of a text. Otherwise, an arrow with nothing
between its dashes is found as one with the next arrow. -/
theorem lineMarks_rowText_iff (shown : row ≠ []) (blank : isBlankText tail = true)
    (here : lines[index]? = some (rowText row tail))
    (found : target? lines index = some (side, target)) :
    lineMarks lines (rowText row tail) index <:+: marks lines ∧
    ('\n' ∉ trim (rowText row tail) → lineMarks lines (rowText row tail) index =
      (foundSpans 0 row).map (Span.mark side target)) ∧
    (lineMarks lines (rowText row tail) index = (drawnSpans 0 row).map (Span.mark side target) ↔
      '\n' ∉ trim (rowText row tail) ∧ ∀ drawing ∈ row.dropLast, drawing.label ≠ []) := by
  refine ⟨lineMarks_among_marks here, lineMarks_rowText shown blank found, ?_⟩
  by_cases single : '\n' ∈ trim (rowText row tail)
  · have unmarked : lineMarks lines (rowText row tail) index = [] :=
      if_neg fun arrow => (isArrowLine_rowText shown blank).mp arrow single
    refine iff_of_false (fun same => ?_) (fun both => both.1 single)
    cases row with
    | nil => exact shown rfl
    | cons drawing more => cases unmarked.symm.trans same
  · rw [lineMarks_rowText shown blank found single,
      (List.map_injective_iff.mpr (Span.mark_injective side target)).eq_iff,
      foundSpans_eq_drawnSpans_iff]
    exact (and_iff_right single).symm

end

def labelledPair : List Drawing :=
  [⟨[], 2, " a ".toList, 2, rfl, by decide, by decide, by simp⟩,
    ⟨"   ".toList, 3, " b ".toList, 3, rfl, by decide, by decide, by simp⟩]

theorem lineMarks_labelledPair :
    rowText labelledPair [] = "<-- a -->   <--- b --->".toList ∧
    target? ["aaaaaaaaa + bbbbbbbbbbb".toList, rowText labelledPair []] 1 = some (.under, 0) ∧
    lineMarks ["aaaaaaaaa + bbbbbbbbbbb".toList, rowText labelledPair []]
      (rowText labelledPair []) 1 = [⟨.under, 0, 0, 9, ['a']⟩, ⟨.under, 0, 12, 23, ['b']⟩] := by
  have found : target? ["aaaaaaaaa + bbbbbbbbbbb".toList, rowText labelledPair []] 1 =
      some (.under, 0) := by decide
  refine ⟨rfl, found, ?_⟩
  exact (lineMarks_rowText_iff (by simp [labelledPair]) rfl rfl found).2.2.mpr
    ⟨by decide, by simp [labelledPair]⟩

def unlabelledFirst : List Drawing :=
  [⟨[], 2, [], 2, rfl, by decide, by decide, by simp⟩,
    ⟨"  ".toList, 2, " b ".toList, 2, rfl, by decide, by decide, by simp⟩]

theorem lineMarks_unlabelledFirst :
    rowText unlabelledFirst [] = "<---->  <-- b -->".toList ∧
    drawnSpans 0 unlabelledFirst = [⟨0, 6, []⟩, ⟨8, 17, ['b']⟩] ∧
    marks ["aaaaaa  bbbbbbbbb".toList, rowText unlabelledFirst []] =
      [⟨.under, 0, 0, 17, ">  <-- b".toList⟩] := by
  have found : target? ["aaaaaa  bbbbbbbbb".toList, rowText unlabelledFirst []] 1 =
      some (.under, 0) := by decide
  have second : lineMarks ["aaaaaa  bbbbbbbbb".toList, rowText unlabelledFirst []]
      (rowText unlabelledFirst []) 1 = (foundSpans 0 unlabelledFirst).map (Span.mark .under 0) :=
    lineMarks_rowText (by simp [unlabelledFirst]) rfl found (by decide)
  have first : lineMarks ["aaaaaa  bbbbbbbbb".toList, rowText unlabelledFirst []]
      "aaaaaa  bbbbbbbbb".toList 0 = [] := by decide
  refine ⟨rfl, by decide, ?_⟩
  simp only [marks, List.zipIdx_cons, List.zipIdx_nil, List.map_cons, List.map_nil, first,
    Nat.zero_add, second]
  decide

end PlainMath.Arrow
