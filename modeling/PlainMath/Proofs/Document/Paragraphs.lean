import Mathlib.Data.List.Forall2
import PlainMath.Document
import PlainMath.Proofs.Arrow.Written
import PlainMath.Proofs.Layout.Passes

/-! The blocks of a region are its paragraphs. A region is cut at pairs of line breaks, so a
block can keep one line break of an odd number above it, or a last one below it. But an odd
number of line breaks behind the last paragraph leaves one of them over, which is a block
and becomes a formula with nothing in it. -/
namespace PlainMath.Document
open Text

def paragraphs (lines : List (List Char)) : List (List (List Char)) :=
  (lines.splitOnP List.isEmpty).filter (· ≠ [])

/-- The lines of the paragraph, with at most one line break above and below them. -/
def Shows (block : List Char) (paragraph : List (List Char)) : Prop :=
  ∃ above below, above ≤ 1 ∧ below ≤ 1 ∧ block =
    List.replicate above '\n' ++ (join ['\n'] paragraph ++ List.replicate below '\n')

def closingBreaks (region : List Char) : Nat := (region.reverse.takeWhile (· == '\n')).length

/-- The line breaks at the end are an odd number, and a single one has nothing in front of it. -/
def Straggles (region : List Char) : Prop :=
  closingBreaks region % 2 = 1 ∧ (closingBreaks region = 1 → region = ['\n'])

instance : DecidablePred Straggles := fun region =>
  inferInstanceAs (Decidable (closingBreaks region % 2 = 1 ∧
    (closingBreaks region = 1 → region = ['\n'])))

theorem closingBreaks_append {front back : List Char} (shown : ∃ c ∈ back, c ≠ '\n') :
    closingBreaks (front ++ back) = closingBreaks back := by
  have halts : (back.reverse.takeWhile (· == '\n')).length ≠ back.reverse.length := fun whole => by
    obtain ⟨c, member, other⟩ := shown
    have all := (List.takeWhile_prefix (l := back.reverse) (· == '\n')).eq_of_length whole
    exact other (eq_of_beq (List.takeWhile_eq_self_iff.mp all c (List.mem_reverse.mpr member)))
  rw [closingBreaks, closingBreaks, List.reverse_append, List.takeWhile_append, if_neg halts]

theorem closingBreaks_replicate (front : List Char) (count : Nat) :
    closingBreaks (front ++ List.replicate count '\n') = count + closingBreaks front := by
  rw [closingBreaks, closingBreaks, List.reverse_append, List.reverse_replicate,
    List.takeWhile_append_of_pos (by simp), List.length_append, List.length_replicate]

theorem closingBreaks_line {line : List Char} (single : '\n' ∉ line) : closingBreaks line = 0 := by
  rw [closingBreaks, List.length_eq_zero_iff, List.takeWhile_eq_nil_iff]
  intro inside broken
  have member : '\n' ∈ line.reverse := by
    rw [← eq_of_beq broken]
    exact List.getElem_mem inside
  exact single (List.mem_reverse.mp member)

theorem not_straggles_line {line : List Char} (single : '\n' ∉ line) : ¬ Straggles line := by
  simp [Straggles, closingBreaks_line single]

theorem straggles_append_iff {front back : List Char} (more : front ≠ [])
    (shown : ∃ c ∈ back, c ≠ '\n') : Straggles (front ++ back) ↔ Straggles back := by
  obtain ⟨c, member, other⟩ := shown
  have alone : back ≠ ['\n'] := fun same => by
    rw [same, List.mem_singleton] at member
    exact other member
  have longer : front ++ back ≠ ['\n'] := fun same => by
    have size := congrArg List.length same
    have first := List.length_pos_iff.mpr more
    have second := List.length_pos_of_mem member
    simp only [List.length_append, List.length_singleton] at size
    omega
  simp [Straggles, closingBreaks_append ⟨c, member, other⟩, alone, longer]

theorem straggles_gap_iff {line : List Char} (single : '\n' ∉ line) (rest : List Char) :
    Straggles (line ++ '\n' :: '\n' :: rest) ↔ Straggles rest := by
  by_cases shown : ∃ c ∈ rest, c ≠ '\n'
  · have cut : line ++ '\n' :: '\n' :: rest = (line ++ ['\n', '\n']) ++ rest := by simp
    rw [cut, straggles_append_iff (by simp) shown]
  · simp only [not_exists, not_and, not_not] at shown
    have breaks : rest = List.replicate rest.length '\n' := List.eq_replicate_of_mem shown
    have cut : line ++ '\n' :: '\n' :: rest = line ++ List.replicate (rest.length + 2) '\n' := by
      rw [List.replicate_succ, List.replicate_succ, ← breaks]
    have own : closingBreaks rest = rest.length := by
      have counted := closingBreaks_replicate [] rest.length
      rwa [List.nil_append, ← breaks] at counted
    have alone : rest.length = 1 → rest = ['\n'] := fun one => by
      rw [breaks, one]
      rfl
    rw [cut, Straggles, Straggles, closingBreaks_replicate, closingBreaks_line single, own]
    constructor
    · exact fun odd => ⟨by omega, alone⟩
    · exact fun odd => ⟨by omega, fun one => by omega⟩

theorem not_straggles_ended {line : List Char} (single : '\n' ∉ line) (shown : line ≠ []) :
    ¬ Straggles (line ++ ['\n']) := by
  have count : closingBreaks (line ++ ['\n']) = 1 := by
    have counted := closingBreaks_replicate line 1
    rwa [closingBreaks_line single] at counted
  simp [Straggles, count, shown]

theorem lines_induct {P : List (List Char) → Prop} (nothing : P []) (last : ∀ line, P [line])
    (ended : ∀ line, P [line, []])
    (gap : ∀ line next rest, P (next :: rest) → P (line :: [] :: next :: rest))
    (more : ∀ line next rest, next ≠ [] → P (next :: rest) → P (line :: next :: rest))
    (lines : List (List Char)) : P lines := by
  induction size : lines.length using Nat.strongRecOn generalizing lines with
  | ind length ih =>
    rcases lines with _ | ⟨line, _ | ⟨next, rest⟩⟩
    · exact nothing
    · exact last line
    · by_cases empty : next = []
      · rw [empty]
        rcases rest with _ | ⟨third, rest⟩
        · exact ended line
        · exact gap line third rest (ih _ (by simp only [← size, List.length_cons]; omega) _ rfl)
      · exact more line next rest empty
          (ih _ (by simp only [← size, List.length_cons]; omega) _ rfl)

section
variable {line text first : List Char} {others : List (List Char)}

theorem splitOn_line (single : '\n' ∉ line) (cut : splitOn ['\n', '\n'] text = first :: others) :
    splitOn ['\n', '\n'] (line ++ text) = (line ++ first) :: others := by
  induction line with
  | nil => exact cut
  | cons c line ih =>
    rw [List.mem_cons, not_or] at single
    have skip : ¬ ['\n', '\n'] <+: c :: (line ++ text) := fun found =>
      single.1 (List.cons_prefix_cons.mp found).1
    rw [List.cons_append, splitOn_skip skip, ih single.2]
    rfl

theorem splitOn_break (single : '\n' ∉ line) {c : Char} (other : c ≠ '\n')
    (cut : splitOn ['\n', '\n'] (c :: text) = first :: others) :
    splitOn ['\n', '\n'] (line ++ '\n' :: c :: text) = (line ++ '\n' :: first) :: others := by
  have skip : ¬ ['\n', '\n'] <+: '\n' :: c :: text := fun found => by
    have second := (List.cons_prefix_cons.mp (List.cons_prefix_cons.mp found).2).1
    exact other second.symm
  refine splitOn_line single ?_
  rw [splitOn_skip skip, cut]
  rfl

theorem splitOn_gap (single : '\n' ∉ line) (rest : List Char) :
    splitOn ['\n', '\n'] (line ++ '\n' :: '\n' :: rest) = line :: splitOn ['\n', '\n'] rest := by
  have found : splitOn ['\n', '\n'] ('\n' :: '\n' :: rest) = [] :: splitOn ['\n', '\n'] rest :=
    splitOn_match (List.cons_ne_nil _ _) rest
  rw [splitOn_line single found, List.append_nil]

theorem splitOn_last (single : '\n' ∉ line) : splitOn ['\n', '\n'] line = [line] := by
  have piece : splitOn ['\n', '\n'] [] = [[]] := by rw [splitOn]
  simpa using splitOn_line single piece

theorem splitOn_ended (single : '\n' ∉ line) :
    splitOn ['\n', '\n'] (line ++ ['\n']) = [line ++ ['\n']] := by
  have only : splitOn ['\n', '\n'] ['\n'] = [['\n']] := by
    rw [splitOn_skip (by decide), splitOn]
    rfl
  exact splitOn_line single only

end

section
variable {line next : List Char} {rest : List (List Char)}

theorem paragraphs_empty (rest : List (List Char)) : paragraphs ([] :: rest) = paragraphs rest := by
  simp [paragraphs, List.splitOnP_cons_eq_if_modifyHead]

theorem paragraphs_last (shown : line ≠ []) : paragraphs [line] = [[line]] := by
  simp [paragraphs, List.splitOnP_cons_eq_if_modifyHead, shown]

theorem paragraphs_gap (shown : line ≠ []) (rest : List (List Char)) :
    paragraphs (line :: [] :: rest) = [line] :: paragraphs rest := by
  simp [paragraphs, List.splitOnP_cons_eq_if_modifyHead, shown]

theorem paragraphs_more (shown : line ≠ []) (shown' : next ≠ []) {run : List (List Char)}
    {runs : List (List (List Char))} (cut : paragraphs (next :: rest) = run :: runs) :
    paragraphs (line :: next :: rest) = (line :: run) :: runs := by
  obtain ⟨first, others, split⟩ := List.exists_cons_of_ne_nil (List.splitOnP_ne_nil List.isEmpty rest)
  simp_all [paragraphs, List.splitOnP_cons_eq_if_modifyHead]

end

/-- The pieces that are not empty: one for each of the paragraphs, and what is left over at the
end of the region. -/
def Shown (region : List Char) (pieces : List (List Char)) (runs : List (List (List Char))) : Prop :=
  ∃ shown, pieces.filter (· ≠ []) = shown ++ (if Straggles region then [['\n']] else []) ∧
    List.Forall₂ Shows shown runs

theorem shown_nil {region : List Char} (settled : ¬ Straggles region) : Shown region [] [] :=
  ⟨[], by simp [settled], .nil⟩

theorem Shown.cons {region block : List Char} {pieces : List (List Char)} {run : List (List Char)}
    {runs : List (List (List Char))} (shown : Shown region pieces runs) (filled : block ≠ [])
    (shows : Shows block run) : Shown region (block :: pieces) (run :: runs) := by
  obtain ⟨blocks, kept, each⟩ := shown
  exact ⟨block :: blocks, by simp [filled, ← kept], .cons shows each⟩

theorem Shown.congr {region region' : List Char} {pieces : List (List Char)}
    {runs : List (List (List Char))} (shown : Shown region pieces runs)
    (same : Straggles region' ↔ Straggles region) : Shown region' pieces runs := by
  simpa only [Shown, same] using shown

def Opens (lines : List (List Char)) : Prop :=
  ∃ run runs below others, below ≤ 1 ∧ join ['\n'] run ≠ [] ∧ paragraphs lines = run :: runs ∧
    splitOn ['\n', '\n'] (join ['\n'] lines) =
      (join ['\n'] run ++ List.replicate below '\n') :: others ∧
    Shown (join ['\n'] lines) others runs

theorem Opens.shown {lines : List (List Char)} (opens : Opens lines) :
    Shown (join ['\n'] lines) (splitOn ['\n', '\n'] (join ['\n'] lines)) (paragraphs lines) := by
  obtain ⟨run, runs, below, others, few, filled, listed, cut, later⟩ := opens
  rw [listed, cut]
  exact later.cons (by simp [filled]) ⟨0, below, Nat.zero_le 1, few, rfl⟩

theorem exists_join_eq_cons (c : Char) (line : List Char) (rest : List (List Char)) :
    ∃ text, join ['\n'] ((c :: line) :: rest) = c :: text := by
  cases rest with
  | nil => exact ⟨line, rfl⟩
  | cons next rest => exact ⟨line ++ ['\n'] ++ join ['\n'] (next :: rest), rfl⟩

theorem shown_lines {lines : List (List Char)} (single : ∀ line ∈ lines, '\n' ∉ line) :
    Shown (join ['\n'] lines) (splitOn ['\n', '\n'] (join ['\n'] lines)) (paragraphs lines) ∧
      ((∃ first ∈ lines.head?, first ≠ []) → Opens lines) := by
  -- each line that is added in front either begins a paragraph, goes on with the first one, or is
  -- empty and leaves at most a line break above it
  induction lines using lines_induct with
  | nothing =>
    refine ⟨?_, by simp⟩
    rw [join, splitOn_last List.not_mem_nil]
    exact ⟨[], by decide, .nil⟩
  | last line =>
    have here := single line List.mem_cons_self
    by_cases shown : line = []
    · subst shown
      have alone : Shown [] (splitOn ['\n', '\n'] []) (paragraphs [[]]) := by
        rw [splitOn_last here, paragraphs_empty]
        exact ⟨[], by decide, .nil⟩
      exact ⟨alone, by simp⟩
    · have opens : Opens [line] :=
        ⟨[line], [], 0, [], Nat.zero_le 1, shown, paragraphs_last shown,
          by simpa [join] using splitOn_last here, shown_nil (not_straggles_line here)⟩
      exact ⟨opens.shown, fun _ => opens⟩
  | ended line =>
    have here := single line List.mem_cons_self
    by_cases shown : line = []
    · subst shown
      have stray : Shown ['\n'] (splitOn ['\n', '\n'] ['\n']) (paragraphs [[], []]) := by
        have only : splitOn ['\n', '\n'] ['\n'] = [['\n']] := splitOn_ended here
        rw [only, paragraphs_empty, paragraphs_empty]
        exact ⟨[], by decide, .nil⟩
      exact ⟨stray, by simp⟩
    · have opens : Opens [line, []] :=
        ⟨[line], [], 1, [], Nat.le_refl 1, shown, paragraphs_gap shown [],
          by simpa [join] using splitOn_ended here,
          shown_nil (by simpa [join] using not_straggles_ended here shown)⟩
      exact ⟨opens.shown, fun _ => opens⟩
  | gap line next rest ih =>
    have here := single line List.mem_cons_self
    obtain ⟨later, _⟩ := ih fun line member =>
      single line (List.mem_cons_of_mem _ (List.mem_cons_of_mem _ member))
    have spelled : join ['\n'] (line :: [] :: next :: rest) =
        line ++ '\n' :: '\n' :: join ['\n'] (next :: rest) := by simp [join]
    have same := straggles_gap_iff here (join ['\n'] (next :: rest))
    have cut := splitOn_gap here (join ['\n'] (next :: rest))
    rw [← spelled] at same cut
    -- the piece ends with the line, and the rest is cut as it would be on its own
    by_cases shown : line = []
    · refine ⟨?_, by simp [shown]⟩
      rw [cut, shown, paragraphs_empty, paragraphs_empty]
      rw [shown] at same
      exact later.congr same
    · have opens : Opens (line :: [] :: next :: rest) :=
        ⟨[line], _, 0, _, Nat.zero_le 1, shown, paragraphs_gap shown _, by simpa [join] using cut,
          later.congr same⟩
      exact ⟨opens.shown, fun _ => opens⟩
  | more line next rest shown' ih =>
    have here := single line List.mem_cons_self
    obtain ⟨_, opened⟩ := ih fun line member => single line (List.mem_cons_of_mem _ member)
    obtain ⟨run, runs, below, others, few, filled, listed, cut, later⟩ := opened ⟨next, rfl, shown'⟩
    obtain ⟨c, next, rfl⟩ := List.exists_cons_of_ne_nil shown'
    obtain ⟨text, begins⟩ := exists_join_eq_cons c next rest
    have other : c ≠ '\n' := fun same =>
      single (c :: next) (by simp) (by rw [same]; exact List.mem_cons_self)
    have spelled : join ['\n'] (line :: (c :: next) :: rest) =
        line ++ ['\n'] ++ join ['\n'] ((c :: next) :: rest) := rfl
    have same : Straggles (join ['\n'] (line :: (c :: next) :: rest)) ↔
        Straggles (join ['\n'] ((c :: next) :: rest)) := by
      rw [spelled]
      exact straggles_append_iff (by simp) ⟨c, by simp [begins], other⟩
    have longer : splitOn ['\n', '\n'] (join ['\n'] (line :: (c :: next) :: rest)) =
        (line ++ '\n' :: (join ['\n'] run ++ List.replicate below '\n')) :: others := by
      rw [begins] at cut
      rw [spelled, begins, List.append_assoc, List.singleton_append]
      exact splitOn_break here other cut
    -- the line goes into the first piece, and is part of its paragraph unless it is empty
    by_cases shown : line = []
    · refine ⟨?_, by simp [shown]⟩
      rw [longer, shown, paragraphs_empty, listed]
      rw [shown] at same
      exact (later.congr same).cons (by simp) ⟨1, below, Nat.le_refl 1, few, rfl⟩
    · have runs' : run ≠ [] := fun empty => filled (by rw [empty]; rfl)
      have opens : Opens (line :: (c :: next) :: rest) := by
        refine ⟨line :: run, runs, below, others, few, ?_, paragraphs_more shown shown' listed, ?_,
          later.congr same⟩
        · simp [join_cons runs']
        · rw [longer, join_cons runs']
          simp
      exact ⟨opens.shown, fun _ => opens⟩

theorem of_mem_splitOnP {lines run : List (List Char)} (listed : run ∈ lines.splitOnP List.isEmpty)
    {line : List Char} (member : line ∈ run) : line ≠ [] ∧ line ∈ lines := by
  induction lines generalizing run with
  | nil =>
    rw [List.splitOnP_nil, List.mem_singleton] at listed
    rw [listed] at member
    cases member
  | cons head lines ih =>
    have deeper {run : List (List Char)} (later : run ∈ lines.splitOnP List.isEmpty)
        (member : line ∈ run) : line ≠ [] ∧ line ∈ head :: lines :=
      (ih later member).imp_right (List.mem_cons_of_mem head)
    obtain ⟨first, others, cut⟩ :=
      List.exists_cons_of_ne_nil (List.splitOnP_ne_nil List.isEmpty lines)
    rw [List.splitOnP_cons_eq_if_modifyHead] at listed
    split at listed
    · rcases List.mem_cons.mp listed with rfl | later
      · cases member
      · exact deeper later member
    · rename_i shown
      rw [cut, List.modifyHead_cons] at listed
      rcases List.mem_cons.mp listed with rfl | later
      · rcases List.mem_cons.mp member with rfl | inner
        · exact ⟨by simpa using shown, List.mem_cons_self⟩
        · exact deeper (by rw [cut]; exact List.mem_cons_self) inner
      · exact deeper (by rw [cut]; exact List.mem_cons_of_mem _ later) member

theorem exists_ne_break {lines run : List (List Char)} {block : List Char}
    (single : ∀ line ∈ lines, '\n' ∉ line) (listed : run ∈ paragraphs lines)
    (shows : Shows block run) : ∃ c ∈ block, c ≠ '\n' := by
  obtain ⟨split, nonempty⟩ := List.mem_filter.mp listed
  obtain ⟨line, more, rfl⟩ := List.exists_cons_of_ne_nil (of_decide_eq_true nonempty)
  obtain ⟨shown, member⟩ := of_mem_splitOnP split List.mem_cons_self
  obtain ⟨c, line, rfl⟩ := List.exists_cons_of_ne_nil shown
  obtain ⟨text, begins⟩ := exists_join_eq_cons c line more
  obtain ⟨above, below, _, _, rfl⟩ := shows
  exact ⟨c, by simp [begins], fun same => single _ member (by rw [same]; exact List.mem_cons_self)⟩

theorem compile_break (options : Options) : compile "\n" options = Tree.emptyGrid.write options := by
  have lines : Text.lines ['\n'] = [[], []] := by
    rw [show ['\n'] = [] ++ '\n' :: [] from rfl, lines_append List.not_mem_nil,
      lines_single List.not_mem_nil]
  have text : (Arrow.braced ['\n']).text = ['\n'] := by
    have plain : Arrow.isArrowLine [] = false := by decide
    have unmarked : Arrow.marks [[], []] = [] := by simp [Arrow.marks, Arrow.lineMarks, plain]
    simp [Arrow.braced, lines, unmarked, Arrow.widestFirst, plain, Arrow.Braced.text, join]
  have flat : Source.flatten options.tabWidth ['\n'] = [' '] := by
    rw [Source.flatten_eq _ (by decide) (by decide), text]
    rfl
  have parsed : parse "" = Tree.emptyGrid := by
    have step : (Grammar.gridRows (Cursor.start []).brackets).step (.start []) =
        .stop (.start []) := rfl
    have found := (Grammar.gridRows (Cursor.start []).brackets).collect_stop step
    simp [parse, Cursor.grid, Grammar.grid, found, Tree.ofRows, Tree.emptyGrid]
  have blank : parse " " = Tree.emptyGrid := by
    rw [← parsed]
    exact @parse_append_blanks [] [' '] (by simp [Unquoted]) (by simp [Blanks])
  have tree : compileTree "\n" options = Tree.emptyGrid := by
    have source : preprocess "\n" options.tabWidth = " " := congrArg String.ofList flat
    rw [compileTree, Tree.ofSource, source, blank, Layout.layout_emptyGrid]
  rw [compile, tree]

/-- The blocks of a region are its paragraphs, one block for each and in order, if and only if no
line break straggles behind them. Otherwise there is one more block, which is this line break, and
it is drawn as a formula with nothing in it. -/
theorem blocks_paragraphs_iff (region : String) (options : Options) :
    (∃ shown : List String,
      List.Forall₂ (fun block run => Shows block.toList run) shown
        (paragraphs (lines region.toList)) ∧
      blocks region = shown ++ (if Straggles region.toList then ["\n"] else []) ∧
      renderSegment options (.formula region) = String.join (shown.map (renderBlock options)) ++
        (if Straggles region.toList then
          "<div>" ++ Tree.emptyGrid.write { options with mode := .block } ++ "</div>" else "")) ∧
    (List.Forall₂ (fun block run => Shows block.toList run) (blocks region)
      (paragraphs (lines region.toList)) ↔ ¬ Straggles region.toList) ∧
    ((∀ block ∈ blocks region, ∃ c ∈ block.toList, c ≠ '\n') ↔ ¬ Straggles region.toList) := by
  have single : ∀ line ∈ lines region.toList, '\n' ∉ line := fun _ => not_mem_of_mem_lines
  obtain ⟨⟨shown, kept, each⟩, _⟩ := shown_lines single
  have whole : join ['\n'] (lines region.toList) = region.toList := join_splitOn (by simp) _
  rw [whole] at kept
  have each' : List.Forall₂ (fun (block : String) run => Shows block.toList run)
      (shown.map String.ofList) (paragraphs (lines region.toList)) := by
    rw [List.forall₂_map_left_iff]
    simpa using each
  have all : blocks region = shown.map String.ofList ++
      (if Straggles region.toList then ["\n"] else []) := by
    rw [blocks, kept, List.map_append]
    split <;> rfl
  by_cases straggles : Straggles region.toList
  · rw [if_pos straggles] at all
    have extra : "\n" ∈ blocks region := by simp [all]
    refine ⟨⟨_, each', by rw [all, if_pos straggles], ?_⟩, ?_, ?_⟩
    · rw [renderSegment, all, List.map_append, String.join_append, if_pos straggles]
      simp [renderBlock, compile_break]
    · refine iff_of_false (fun matched => ?_) (not_not_intro straggles)
      have size := matched.length_eq
      rw [all, List.length_append, each'.length_eq] at size
      simp at size
    · refine iff_of_false (fun drawn => ?_) (not_not_intro straggles)
      obtain ⟨c, member, other⟩ := drawn _ extra
      exact other (by simpa using member)
  · rw [if_neg straggles, List.append_nil] at all
    refine ⟨⟨_, each', by rw [all, if_neg straggles, List.append_nil], ?_⟩, ?_, ?_⟩
    · rw [renderSegment, all, if_neg straggles, String.append_empty]
    · exact iff_of_true (all ▸ each') straggles
    · refine iff_of_true (fun block member => ?_) straggles
      rw [all] at member
      obtain ⟨index, bound, rfl⟩ := List.mem_iff_getElem.mp member
      have bound' : index < (paragraphs (lines region.toList)).length := each'.length_eq ▸ bound
      exact exists_ne_break single (List.getElem_mem bound') (each'.get bound bound')

theorem blocks_three_breaks :
    (∀ line ∈ lines "a\n\n\n".toList, line = [] ∨ line.any (fun c => !isBlank c) = true) ∧
    paragraphs (lines "a\n\n\n".toList) = [[['a']]] ∧ blocks "a\n\n\n" = ["a", "\n"] ∧
    render "###a\n\n\n###" "###" {} = renderBlock {} "a" ++
      "<div><math display=\"block\"><mrow></mrow></math></div>" := by
  have single : '\n' ∉ ['a'] := by decide
  have split : lines "a\n\n\n".toList = [['a'], [], [], []] := by
    have spelled : "a\n\n\n".toList = ['a'] ++ '\n' :: ([] ++ '\n' :: ([] ++ '\n' :: [])) := rfl
    rw [spelled, lines_append single, lines_append List.not_mem_nil, lines_append List.not_mem_nil,
      lines_single List.not_mem_nil]
  have cut : blocks "a\n\n\n" = ["a", "\n"] := by
    have pieces : splitOn ['\n', '\n'] "a\n\n\n".toList = [['a'], ['\n']] :=
      (splitOn_gap single ['\n']).trans (congrArg _ (splitOn_ended List.not_mem_nil))
    rw [blocks, pieces]
    decide
  refine ⟨?_, ?_, cut, ?_⟩
  · rw [split]
    decide
  · rw [split]
    decide
  · have regions : segments "###a\n\n\n###" "###" =
        [.prose "", .formula "a\n\n\n", .prose ""] := by
      simp [segments, splitOn, List.isPrefixOf, consFirst, alternate]
    have empty : Tree.emptyGrid.write { mode := .block } =
        "<math display=\"block\"><mrow></mrow></math>" := by decide
    simp [render, regions, renderSegment, cut, renderBlock, compile_break, empty, String.join_cons]

end PlainMath.Document
