import PlainMath.Compile
import PlainMath.Proofs.Grammar.TrailingBlanks
import PlainMath.Proofs.Text.Pieces

/-! A brace that is drawn as an arrow under a line is the same as one that is written as a call
in the line. The arrow leaves a blank at the end of the text, which reading does not see. -/
namespace PlainMath.Arrow
open Text

theorem not_mem_of_isBlankText {text : List Char} (blank : isBlankText text = true) {c : Char}
    (shown : isBlank c = false) : c ∉ text := fun member => by
  rw [List.all_eq_true.mp blank c member] at shown
  cases shown

theorem dropWhile_isBlank {lead rest : List Char} (blank : isBlankText lead = true)
    (first : ∀ c ∈ rest.head?, isBlank c = false) : (lead ++ rest).dropWhile isBlank = rest := by
  rw [List.dropWhile_append_of_pos (List.all_eq_true.mp blank)]
  cases rest with
  | nil => rfl
  | cons c rest => simp [first c rfl]

theorem trim_append {lead body tail : List Char} (blank : isBlankText lead = true)
    (blank' : isBlankText tail = true) (more : body ≠ [])
    (first : ∀ c ∈ body.head?, isBlank c = false) (last : ∀ c ∈ body.getLast?, isBlank c = false) :
    trim (lead ++ (body ++ tail)) = body := by
  have start : trimStart (lead ++ (body ++ tail)) = body ++ tail :=
    dropWhile_isBlank blank (by rwa [List.head?_append_of_ne_nil _ more])
  have stop : (tail.reverse ++ body.reverse).dropWhile isBlank = body.reverse :=
    dropWhile_isBlank (by simpa [isBlankText] using blank') (by rwa [List.head?_reverse])
  rw [trim, start, trimEnd, List.reverse_append, stop, List.reverse_reverse]

theorem exists_trim (text : List Char) : ∃ lead tail, isBlankText lead = true ∧
    isBlankText tail = true ∧ text = lead ++ (trim text ++ tail) := by
  refine ⟨text.takeWhile isBlank, ((trimStart text).reverse.takeWhile isBlank).reverse, ?_, ?_, ?_⟩
  · exact List.all_eq_true.mpr fun c => List.mem_takeWhile_imp
  · simp [isBlankText]
  · rw [trim, trimEnd, ← List.reverse_append, List.takeWhile_append_dropWhile, List.reverse_reverse,
      trimStart, List.takeWhile_append_dropWhile]

theorem trim_ne_nil {text : List Char} (visible : isBlankText text = false) : trim text ≠ [] := by
  intro empty
  obtain ⟨lead, tail, blank, blank', whole⟩ := exists_trim text
  rw [isBlankText] at visible blank blank'
  rw [whole, empty, List.nil_append, List.all_append, blank, blank'] at visible
  cases visible

theorem mem_of_mem_trim {text : List Char} {c : Char} (member : c ∈ trim text) : c ∈ text := by
  obtain ⟨lead, tail, _, _, whole⟩ := exists_trim text
  rw [whole]
  simp [member]

theorem isArrowLine_iff {line : List Char} (single : '\n' ∉ line) : isArrowLine line = true ↔
    ∃ lead inner tail, isBlankText lead = true ∧ isBlankText tail = true ∧
      line = lead ++ (("<--".toList ++ (inner ++ "-->".toList)) ++ tail) := by
  constructor
  · intro arrow
    obtain ⟨lead, tail, blank, blank', whole⟩ := exists_trim line
    simp only [isArrowLine, Bool.and_eq_true, List.isPrefixOf_iff_prefix,
      List.isSuffixOf_iff_suffix, decide_eq_true_eq] at arrow
    obtain ⟨⟨⟨⟨more, front⟩, back⟩, long⟩, _⟩ := arrow
    rw [← front] at back long whole
    obtain ⟨inner, rfl⟩ : "-->".toList <:+ more := by
      refine List.suffix_of_suffix_length_le back (List.suffix_append _ _) ?_
      simp only [List.length_append, String.reduceToList, List.length_cons,
        List.length_nil] at long ⊢
      omega
    exact ⟨lead, inner, tail, blank, blank', whole⟩
  · rintro ⟨lead, inner, tail, blank, blank', rfl⟩
    have last : ("<--".toList ++ (inner ++ "-->".toList)).getLast? = some '>' := by
      rw [List.getLast?_append, List.getLast?_append]
      rfl
    have body : trim (lead ++ (("<--".toList ++ (inner ++ "-->".toList)) ++ tail)) = _ :=
      trim_append blank blank' (by simp) (fun c first => by cases first; rfl)
        (fun c final => by cases last.symm.trans final; rfl)
    have free : '\n' ∉ "<--".toList ++ (inner ++ "-->".toList) := fun found => single (by simp_all)
    rw [isArrowLine, body]
    simp only [Bool.and_eq_true, List.isPrefixOf_iff_prefix, List.isSuffixOf_iff_suffix,
      decide_eq_true_eq, Bool.not_eq_true', List.contains_eq_mem, decide_eq_false_iff_not]
    refine ⟨⟨⟨List.prefix_append _ _, ?_⟩, ?_⟩, free⟩
    · exact (List.suffix_append _ _).trans (List.suffix_append _ _)
    · simp

theorem suffix_of_append {key front text : List Char} (absent : ∀ c ∈ front.getLast?, c ∉ key)
    (ends : key <:+ front ++ text) : key <:+ text := by
  rw [← List.reverse_prefix] at ends ⊢
  rw [List.reverse_append] at ends
  refine prefix_of_append (fun c first => ?_) ends
  rw [List.mem_reverse]
  exact absent c (by rwa [← List.head?_reverse])

theorem isArrowLine_of_call {before call behind middle : List Char}
    (single : '\n' ∉ before ++ (('u' :: call ++ [')']) ++ behind))
    (single' : '\n' ∉ before ++ (middle ++ behind))
    (arrow : isArrowLine (before ++ (('u' :: call ++ [')']) ++ behind)) = true) :
    isArrowLine (before ++ (middle ++ behind)) = true := by
  obtain ⟨lead, inner, tail, blank, blank', whole⟩ := (isArrowLine_iff single).mp arrow
  have leads : lead ++ "<--".toList <+: before ++ (('u' :: call ++ [')']) ++ behind) :=
    ⟨inner ++ "-->".toList ++ tail, by rw [whole]; simp⟩
  have ends : "-->".toList ++ tail <:+ (before ++ ('u' :: call ++ [')'])) ++ behind :=
    ⟨lead ++ "<--".toList ++ inner, by rw [List.append_assoc before, whole]; simp⟩
  obtain ⟨front, rfl⟩ : lead ++ "<--".toList <+: before := by
    refine prefix_of_append ?_ leads
    rintro c ⟨⟩
    simpa using not_mem_of_isBlankText blank (by decide)
  obtain ⟨back, rfl⟩ : "-->".toList ++ tail <:+ behind := by
    refine suffix_of_append ?_ ends
    intro c last
    rw [← List.append_assoc, List.getLast?_concat] at last
    cases last
    simpa using not_mem_of_isBlankText blank' (by decide)
  rw [isArrowLine_iff single']
  exact ⟨lead, front ++ (middle ++ back), tail, blank, blank', by simp⟩

def arrowText (left : Nat) (label : List Char) (right : Nat) : List Char :=
  '<' :: (List.replicate left '-' ++ (label ++ (List.replicate right '-' ++ ['>'])))

def drawn (column left : Nat) (label : List Char) (right : Nat) : List Char :=
  List.replicate column ' ' ++ arrowText left label right

/-- Runs of dashes that are long enough for heads, and a label that shows and has no dashes. -/
structure Drawable (left : Nat) (label : List Char) (right : Nat) : Prop where
  long : 2 ≤ left
  long' : 2 ≤ right
  labelled : isBlankText label = false
  single : '\n' ∉ label
  dashless : '-' ∉ label

theorem not_mem_drawing {line label : List Char} {c : Char} {column left right : Nat}
    (outside : c ∉ line) (outside' : c ∉ label) (other : c ∉ "\n <->".toList) :
    c ∉ line ++ '\n' :: drawn column left label right := by
  simp only [String.reduceToList, List.mem_cons, List.not_mem_nil, or_false, not_or] at other
  simp [drawn, arrowText, outside, outside', other]

theorem dashes_replicate (count : Nat) {rest : List Char} (other : rest.head? ≠ some '-') :
    dashes (List.replicate count '-' ++ rest) = count := by
  unfold dashes
  rw [List.takeWhile_append_of_pos (by simp), List.length_append, List.length_replicate]
  cases rest with
  | nil => rfl
  | cons c rest =>
    have other : ¬ c = '-' := by simpa using other
    simp [other]

theorem label?_of_head {text : List Char} {length : Nat} (found : head? text = some length) :
    label? text = some ([], length) := by
  cases text with
  | nil => cases found
  | cons c rest => rw [label?, found]

theorem head?_eq_none {c : Char} {rest : List Char} (other : c ≠ '-') :
    head? (c :: rest) = none := by
  have dashless : dashes (c :: rest) = 0 := dashes_replicate 0 (by simpa using other)
  simp [head?, dashless]

def lengthen (front : List Char) (found : List Char × Nat) : List Char × Nat :=
  (front ++ found.1, front.length + found.2)

theorem map_lengthen_nil (found : Option (List Char × Nat)) :
    found.map (lengthen []) = found := by
  cases found <;> simp [lengthen]

theorem map_lengthen_lengthen (front back : List Char) (found : Option (List Char × Nat)) :
    (found.map (lengthen back)).map (lengthen front) = found.map (lengthen (front ++ back)) := by
  cases found <;> simp [lengthen, Nat.add_assoc]

theorem label?_cons {c : Char} {rest : List Char} (headless : head? (c :: rest) = none)
    (other : c ≠ '\n') : label? (c :: rest) = (label? rest).map (lengthen [c]) := by
  rw [label?, headless]
  simp only [if_neg other]
  cases label? rest <;> simp [lengthen, Nat.add_comm]

theorem label?_append {front : List Char} (single : '\n' ∉ front) (dashless : '-' ∉ front)
    (text : List Char) : label? (front ++ text) = (label? text).map (lengthen front) := by
  -- no head starts in a text without dashes, so it belongs to the label
  induction front with
  | nil => exact (map_lengthen_nil _).symm
  | cons c front ih =>
    rw [List.mem_cons, not_or] at single dashless
    rw [List.cons_append, label?_cons (head?_eq_none (Ne.symm dashless.1)) (Ne.symm single.1),
      ih single.2 dashless.2, map_lengthen_lengthen, List.singleton_append]

theorem head?_replicate {count : Nat} (long : 2 ≤ count) (behind : List Char) :
    head? (List.replicate count '-' ++ '>' :: behind) = some (count + 1) := by
  have size : dashes (List.replicate count '-' ++ '>' :: behind) = count :=
    dashes_replicate count (by simp)
  simp [head?, size, long]

theorem arrow?_of_label? {count length : Nat} {label rest : List Char} (long : 2 ≤ count)
    (other : rest.head? ≠ some '-') (read : label? rest = some (label, length)) :
    arrow? ('<' :: (List.replicate count '-' ++ rest)) = some (label, count + length + 1) := by
  rw [arrow?]
  simp only [dashes_replicate count other, List.drop_left' List.length_replicate, read,
    Nat.not_lt.mpr long, if_false]
  congr 2
  omega

section
variable {label : List Char} {left right : Nat}

theorem length_arrowText (left : Nat) (label : List Char) (right : Nat) :
    (arrowText left label right).length = left + label.length + right + 2 := by
  simp only [arrowText, List.length_cons, List.length_append, List.length_replicate,
    List.length_nil]
  omega

theorem arrowText_ne_nil : arrowText left label right ≠ [] := List.cons_ne_nil _ _

theorem arrow?_arrowText (long : 2 ≤ left) (long' : 2 ≤ right) (labelled : label ≠ [])
    (single : '\n' ∉ label) (dashless : '-' ∉ label) (behind : List Char) :
    arrow? (arrowText left label right ++ behind) =
      some (label, (arrowText left label right).length) := by
  have spelled : arrowText left label right ++ behind = '<' :: (List.replicate left '-' ++
      (label ++ (List.replicate right '-' ++ '>' :: behind))) := by simp [arrowText]
  have read : label? (label ++ (List.replicate right '-' ++ '>' :: behind)) =
      some (label, label.length + (right + 1)) := by
    rw [label?_append single dashless, label?_of_head (head?_replicate long' behind)]
    simp [lengthen]
  have other : (label ++ (List.replicate right '-' ++ '>' :: behind)).head? ≠ some '-' := by
    rw [List.head?_append_of_ne_nil _ labelled]
    exact fun first => dashless (List.mem_of_head? first)
  rw [spelled, arrow?_of_label? long other read, length_arrowText]
  congr 2
  omega

theorem arrow?_eq_none {c : Char} (other : c ≠ '<') (rest : List Char) :
    arrow? (c :: rest) = none := by
  unfold arrow?
  split
  · rename_i same
    cases same
    exact absurd rfl other
  · rfl

theorem spans_append {front : List Char} (headless : '<' ∉ front) (column : Nat)
    (text : List Char) : spans column (front ++ text) = spans (column + front.length) text := by
  induction front generalizing column with
  | nil => rfl
  | cons c front ih =>
    rw [List.mem_cons, not_or] at headless
    rw [List.cons_append, spans, arrow?_eq_none (Ne.symm headless.1)]
    simp only [ih headless.2, List.length_cons]
    congr 1
    omega

theorem spans_arrow {arrow behind label : List Char} (shown : arrow ≠ [])
    (found : arrow? (arrow ++ behind) = some (label, arrow.length)) (column : Nat) :
    spans column (arrow ++ behind) =
      ⟨column, column + arrow.length, trim label⟩ :: spans (column + arrow.length) behind := by
  cases arrow with
  | nil => exact absurd rfl shown
  | cons c arrow =>
    rw [List.cons_append] at found ⊢
    rw [spans, found]
    simp

theorem spans_drawn (column : Nat) (drawable : Drawable left label right) :
    spans 0 (drawn column left label right) =
      [⟨column, column + (left + label.length + right + 2), trim label⟩] := by
  obtain ⟨long, long', labelled, single, dashless⟩ := drawable
  have shown : label ≠ [] := fun empty => by rw [empty] at labelled; cases labelled
  have found := arrow?_arrowText long long' shown single dashless []
  have only := spans_arrow arrowText_ne_nil found column
  rw [List.append_nil, spans, length_arrowText] at only
  rw [drawn, spans_append (by simp), List.length_replicate, Nat.zero_add, only]

theorem isArrowLine_drawn (column : Nat) (drawable : Drawable left label right) :
    isArrowLine (drawn column left label right) = true := by
  obtain ⟨long, long', _, single, _⟩ := drawable
  obtain ⟨first, rfl⟩ := Nat.exists_eq_add_of_le' long
  obtain ⟨second, rfl⟩ := Nat.exists_eq_add_of_le' long'
  rw [isArrowLine_iff (by simp [drawn, arrowText, single])]
  refine ⟨List.replicate column ' ',
    List.replicate first '-' ++ (label ++ List.replicate second '-'), [], ?_, rfl, ?_⟩
  · simp [isBlankText, isBlank]
  · rw [drawn, arrowText, List.replicate_add second 2]
    simp [List.replicate_succ]

theorem marks_drawn {line : List Char} (column : Nat) (shown : isBlankText line = false)
    (other : isArrowLine line = false) (drawable : Drawable left label right) :
    marks [line, drawn column left label right] =
      [⟨.under, 0, column, column + (left + label.length + right + 2), trim label⟩] := by
  have arrow := isArrowLine_drawn column drawable
  have target : target? [line, drawn column left label right] 1 = some (.under, 0) := by
    simp [target?, stackTop, other, shown]
  simp [marks, lineMarks, other, arrow, target, spans_drawn column drawable]

end

/-- The line with a call around the columns that the arrow spans. -/
def written (line label : List Char) (column width : Nat) : List Char :=
  let stop := min (column + width) line.length
  if column < line.length then
    line.take column ++ ("underbrace(".toList ++ (trim label ++
      ';' :: (line.drop column).take (stop - column)) ++ [')'] ++ line.drop stop)
  else
    line

section
variable {line label : List Char} {column width : Nat}

theorem mem_written {c : Char} (member : c ∈ written line label column width) :
    c ∈ line ∨ c ∈ label ∨ c ∈ "underbrace(;)".toList := by
  unfold written at member
  dsimp only at member
  split at member
  · have word : "underbrace(".toList <+: "underbrace(;)".toList := ⟨";)".toList, by simp⟩
    simp only [List.mem_append, List.mem_cons, List.not_mem_nil, or_false] at member
    rcases member with front | ((call | comment | rfl | inside) | rfl) | behind
    · exact .inl (List.mem_of_mem_take front)
    · exact .inr (.inr (word.subset call))
    · exact .inr (.inl (mem_of_mem_trim comment))
    · exact .inr (.inr (by decide))
    · exact .inl (List.mem_of_mem_drop (List.mem_of_mem_take inside))
    · exact .inr (.inr (by decide))
    · exact .inl (List.mem_of_mem_drop behind)
  · exact .inl member

theorem not_mem_written {c : Char} (outside : c ∉ line) (outside' : c ∉ label)
    (other : c ∉ "underbrace(;)".toList) : c ∉ written line label column width := by
  intro member
  rcases mem_written member with found | found | found
  · exact outside found
  · exact outside' found
  · exact other found

theorem isArrowLine_written (single : '\n' ∉ line) (single' : '\n' ∉ label)
    (other : isArrowLine line = false) :
    isArrowLine (written line label column width) = false := by
  have free : '\n' ∉ written line label column width :=
    not_mem_written single single' (by decide)
  rw [Bool.eq_false_iff]
  intro arrow
  refine absurd ?_ (Bool.eq_false_iff.mp other)
  unfold written at free arrow
  dsimp only at free arrow
  split at arrow
  · rename_i inside
    rw [if_pos inside] at free
    have whole : line = line.take column ++ ((line.drop column).take
        (min (column + width) line.length - column) ++
          line.drop (min (column + width) line.length)) := by
      have rest : line.drop (min (column + width) line.length) =
          (line.drop column).drop (min (column + width) line.length - column) := by
        rw [List.drop_drop]
        congr 1
        omega
      rw [rest, List.take_append_drop, List.take_append_drop]
    rw [whole] at single ⊢
    exact isArrowLine_of_call free single arrow
  · exact arrow

theorem text_braced_single (single : '\n' ∉ line) (other : isArrowLine line = false) :
    (braced line).text = line := by
  have unmarked : marks [line] = [] := by simp [marks, lineMarks, other]
  simp [braced, lines_single single, unmarked, widestFirst, other, Braced.text, join]

theorem lines_mark (below : List Char) (labelled : isBlankText label = false) (wide : 0 < width) :
    (Progress.mark ⟨[line, below], []⟩ ⟨.under, 0, column, column + width, trim label⟩).lines =
      [written line label column width, below] := by
  simp only [Progress.mark, List.foldl_nil, List.getD_cons_zero, insertion?]
  by_cases inside : column < line.length
  · rw [if_pos (by omega), Nat.min_eq_left (Nat.le_of_lt inside)]
    simp [written, inside, Insertion.apply, opening, braceWord, trim_ne_nil labelled]
  · rw [if_neg (by omega)]
    simp [written, inside]

theorem text_braced_drawn (column : Nat) {left right : Nat} (single : '\n' ∉ line)
    (shown : isBlankText line = false) (other : isArrowLine line = false)
    (drawable : Drawable left label right) :
    (braced (line ++ '\n' :: drawn column left label right)).text =
      written line label column (left + label.length + right + 2) ++ ['\n'] := by
  have arrow := isArrowLine_drawn column drawable
  have apart : lines (line ++ '\n' :: drawn column left label right) =
      [line, drawn column left label right] := by
    rw [lines_append single, lines_single (by simp [drawn, arrowText, drawable.single])]
  have marked := marks_drawn column shown other drawable
  simp only [braced, apart, marked, widestFirst, List.mergeSort_singleton, List.foldl_cons,
    List.foldl_nil, Braced.text, lines_mark _ drawable.labelled (Nat.succ_pos _)]
  simp [other, arrow, join]

end

end PlainMath.Arrow

namespace PlainMath.Source

theorem expand_append (tabWidth : Nat) (first second : List Char) :
    expand tabWidth (first ++ second) = expand tabWidth first ++ expand tabWidth second := by
  simp [expand, expandTabs]

theorem expand_cons (tabWidth : Nat) {c : Char} (other : c ≠ '\r') (other' : c ≠ '\t')
    (text : List Char) : expand tabWidth (c :: text) = c :: expand tabWidth text := by
  simp [expand, expandTabs, other, other']

theorem expand_eq_self (tabWidth : Nat) {text : List Char} (noReturn : '\r' ∉ text)
    (noTab : '\t' ∉ text) : expand tabWidth text = text := by
  induction text with
  | nil => rfl
  | cons c text ih =>
    rw [List.mem_cons, not_or] at noReturn noTab
    rw [expand_cons tabWidth (Ne.symm noReturn.1) (Ne.symm noTab.1), ih noReturn.2 noTab.2]

theorem not_mem_expand (tabWidth : Nat) {c : Char} (other : c ≠ ' ') {text : List Char}
    (absent : c ∉ text) : c ∉ expand tabWidth text := by
  intro member
  obtain ⟨d, listed, inside⟩ := List.mem_flatMap.mp member
  split at inside
  · exact other (List.eq_of_mem_replicate inside)
  · exact absent (List.mem_singleton.mp inside ▸ (List.mem_filter.mp listed).1)

theorem flatten_eq (tabWidth : Nat) {source : List Char} (noReturn : '\r' ∉ source)
    (noTab : '\t' ∉ source) : flatten tabWidth source =
      (Arrow.braced source).text.map fun c => if c = '\n' then ' ' else c := by
  rw [flatten, expand_eq_self tabWidth noReturn noTab]

theorem map_breaks {line : List Char} (single : '\n' ∉ line) :
    (line.map fun c => if c = '\n' then ' ' else c) = line := by
  refine (List.map_congr_left fun c member => ?_).trans (List.map_id line)
  exact if_neg fun same : c = '\n' => single (same ▸ member)

theorem flatten_single (tabWidth : Nat) {line : List Char} (single : '\n' ∉ line)
    (other : Arrow.isArrowLine (expand tabWidth line) = false) :
    flatten tabWidth line = expand tabWidth line := by
  have free := not_mem_expand tabWidth (by decide) single
  rw [flatten, Arrow.text_braced_single free other, map_breaks free]

theorem flatten_line (tabWidth : Nat) {line : List Char}
    (plain : ∀ c ∈ ['\n', '\r', '\t'], c ∉ line) (other : Arrow.isArrowLine line = false) :
    flatten tabWidth line = line := by
  have same := expand_eq_self tabWidth (plain '\r' (by simp)) (plain '\t' (by simp))
  rw [flatten_single tabWidth (plain '\n' (by simp)) (by rwa [same]), same]

end PlainMath.Source

namespace PlainMath
open Text Arrow

/-- An arrow under a line is the same as a call in the line around the columns that it spans, and
an arrow that spans none of them is nothing. -/
theorem compile_drawn_eq_compile_written {line label : List Char} {left right : Nat} (column : Nat)
    (shown : isBlankText line = false) (other : isArrowLine line = false)
    (plain : ∀ c ∈ ['\n', '\r', '\t', '\x22', '\x27'], c ∉ line)
    (labelled : isBlankText label = false)
    (plain' : ∀ c ∈ ['<', '>', '-', '\n', '\r', '\t', '\x22', '\x27'], c ∉ label)
    (long : 2 ≤ left) (long' : 2 ≤ right) (options : Options) :
    compile (String.ofList (line ++ '\n' :: drawn column left label right)) options =
      compile (String.ofList (written line label column (left + label.length + right + 2)))
        options := by
  have single := plain '\n' (by simp)
  have single' := plain' '\n' (by simp)
  have braced := text_braced_drawn column single shown other
    ⟨long, long', labelled, single', plain' '-' (by simp)⟩
  generalize left + label.length + right + 2 = width at braced ⊢
  have free : ∀ c ∈ ['\n', '\r', '\t', '\x22', '\x27'], c ∉ written line label column width := by
    intro c listed
    refine not_mem_written (plain c listed)
      (plain' c (List.mem_append_right ['<', '>', '-'] listed)) ?_
    simp only [List.mem_cons, List.not_mem_nil, or_false] at listed
    rcases listed with rfl | rfl | rfl | rfl | rfl <;> decide
  have call : Source.flatten options.tabWidth (written line label column width) = _ :=
    Source.flatten_line options.tabWidth
      (fun c listed => free c (List.mem_append_left ['\x22', '\x27'] listed))
      (isArrowLine_written single single' other)
  have drawing : Source.flatten options.tabWidth (line ++ '\n' :: drawn column left label right) =
      written line label column width ++ [' '] := by
    rw [Source.flatten_eq _
        (not_mem_drawing (plain _ (by simp)) (plain' _ (by simp)) (by decide))
        (not_mem_drawing (plain _ (by simp)) (plain' _ (by simp)) (by decide)),
      braced, List.map_append, Source.map_breaks (free _ (by simp))]
    rfl
  simp only [compile, compileTree, Tree.ofSource, preprocess, String.toList_ofList, drawing, call]
  rw [parse_append_blanks ⟨free _ (by simp), free _ (by simp)⟩ (by simp [Blanks])]

theorem compile_tail_drawn : isBlankText "a + b + c".toList = false ∧
    isArrowLine "a + b + c".toList = false ∧
      compile "a + b + c\n    <-- tail -->" {} = compile "a + underbrace(tail;b + c)" {} := by
  have same : compile (String.ofList ("a + b + c".toList ++
      '\n' :: drawn 4 2 " tail ".toList 2)) {} = _ :=
    compile_drawn_eq_compile_written 4 (by decide) (by decide) (by simp) (by decide) (by simp)
      (by decide) (by decide) {}
  exact ⟨by decide, by decide, same⟩

end PlainMath
