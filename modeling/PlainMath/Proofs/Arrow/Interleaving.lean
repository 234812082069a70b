import Mathlib.Algebra.Ring.Nat
import Mathlib.Data.List.Induction
import PlainMath.Arrow.Braced

/-! Where the calls for marks end up in a line. A line with its calls is the line
as it was drawn, with openings in front of some characters and parentheses behind
some, whatever the number of the marks and however they nest, cross or hang over
the end. Columns that move with every insertion keep their place between the
characters of the drawn line; that is the invariant of the whole run. -/
namespace PlainMath.Arrow
open Text

/-- A line with a text in front of and a text behind every character. -/
def weave (front behind : Nat → List Char) (column : Nat) (line : List Char) : List Char :=
  (line.zipIdx column).flatMap fun place => front place.2 ++ place.1 :: behind place.2

def insertAt (position : Nat) (text line : List Char) : List Char :=
  line.take position ++ text ++ line.drop position

variable {front behind : Nat → List Char}

theorem weave_append (column : Nat) (first second : List Char) :
    weave front behind column (first ++ second) =
      weave front behind column first ++ weave front behind (column + first.length) second := by
  rw [weave, List.zipIdx_append, List.flatMap_append]
  rfl

theorem weave_cons (column : Nat) (c : Char) (rest : List Char) :
    weave front behind column (c :: rest) =
      front column ++ c :: behind column ++ weave front behind (column + 1) rest := by
  simp [weave]

theorem weave_congr {front' behind' : Nat → List Char} {column : Nat} {line : List Char}
    (same : ∀ place, column ≤ place → place < column + line.length →
      front place = front' place ∧ behind place = behind' place) :
    weave front behind column line = weave front' behind' column line := by
  induction line generalizing column with
  | nil => rfl
  | cons c rest ih =>
    have here := same column (Nat.le_refl _) (by simp)
    have later : weave front behind (column + 1) rest = weave front' behind' (column + 1) rest :=
      ih fun place low high => same place (by omega) (by simp only [List.length_cons]; omega)
    rw [weave_cons, weave_cons, here.1, here.2, later]

theorem insertAt_append {position : Nat} {before after : List Char} (text : List Char)
    (place : position = before.length) :
    insertAt position text (before ++ after) = before ++ text ++ after := by
  rw [insertAt, List.take_left' place.symm, List.drop_left' place.symm]

theorem weave_update (front behind : Nat → List Char) {line : List Char} {column : Nat}
    (inside : column < line.length) :
    ∃ c right, ∀ text text', weave (Function.update front column text)
        (Function.update behind column text') 0 line =
      weave front behind 0 (line.take column) ++ text ++ c :: text' ++ right := by
  refine ⟨line.get ⟨column, inside⟩, weave front behind (column + 1) (line.drop (column + 1)), ?_⟩
  intro text text'
  have size : (line.take column).length = column := by simp; omega
  have left : weave (Function.update front column text) (Function.update behind column text') 0
      (line.take column) = weave front behind 0 (line.take column) :=
    weave_congr fun place _ low => ⟨Function.update_of_ne (by omega) _ _,
      Function.update_of_ne (by omega) _ _⟩
  have right : weave (Function.update front column text) (Function.update behind column text')
      (column + 1) (line.drop (column + 1)) =
        weave front behind (column + 1) (line.drop (column + 1)) :=
    weave_congr fun place high _ => ⟨Function.update_of_ne (by omega) _ _,
      Function.update_of_ne (by omega) _ _⟩
  have cut : line = line.take column ++ line.get ⟨column, inside⟩ :: line.drop (column + 1) := by
    simp
  conv_lhs => rw [cut]
  rw [weave_append, weave_cons, Nat.zero_add, size, left, right, Function.update_self,
    Function.update_self]
  simp

theorem weave_insert_front {line text : List Char} {column : Nat} (inside : column < line.length) :
    weave (Function.update front column (front column ++ text)) behind 0 line =
      insertAt ((weave front behind 0 (line.take column)).length + (front column).length) text
        (weave front behind 0 line) := by
  obtain ⟨c, right, form⟩ := weave_update front behind inside
  have drawn := form (front column) (behind column)
  have longer := form (front column ++ text) (behind column)
  rw [Function.update_eq_self] at drawn longer
  rw [Function.update_eq_self, List.append_assoc _ _ right] at drawn
  rw [longer, drawn, insertAt_append text (by simp)]
  simp

theorem weave_insert_behind {line text first second : List Char} {column : Nat}
    (inside : column < line.length) (split : behind column = first ++ second) :
    weave front (Function.update behind column (first ++ text ++ second)) 0 line =
      insertAt ((weave front behind 0 (line.take column)).length + (front column).length + 1 +
        first.length) text (weave front behind 0 line) := by
  obtain ⟨c, right, form⟩ := weave_update front behind inside
  have drawn := form (front column) (behind column)
  have longer := form (front column) (first ++ text ++ second)
  rw [Function.update_eq_self] at drawn longer
  have apart : weave front behind 0 line =
      (weave front behind 0 (line.take column) ++ front column ++ c :: first) ++
        (second ++ right) := by
    rw [Function.update_eq_self, split] at drawn
    rw [drawn]
    simp
  rw [longer, apart, insertAt_append text (by simp; omega)]
  simp

/-- What is written in front of the span of a mark. Two quotes stand for an empty comment. -/
def callText (mark : Mark) : List Char :=
  (match mark.side with
    | .over => "overbrace("
    | .under => "underbrace(").toList ++
      (if mark.comment = [] then "''".toList else mark.comment) ++ [';']

theorem opening_eq_callText (mark : Mark) : opening mark = callText mark := by
  unfold opening callText
  cases mark.side <;> simp [braceWord]

def openings (marks : List Mark) (column : Nat) : List Char :=
  (marks.filter (·.start = column)).flatMap callText

/-- A parenthesis for every mark whose last column, within the line, is this one. -/
def closings (marks : List Mark) (length column : Nat) : List Char :=
  (marks.filter fun mark => min mark.stop length = column + 1).map fun _ => ')'

def interleave (marks : List Mark) (line : List Char) : List Char :=
  weave (openings marks) (closings marks line.length) 0 line

/-- How much is inserted in front of the point behind the character before a column. -/
def inserted (marks : List Mark) (length column : Nat) : Nat :=
  (marks.map fun mark => (if mark.start < column then (callText mark).length else 0) +
    if min mark.stop length < column then 1 else 0).sum

/-- Where a drawn column is now that starts a mark: behind all openings in front of its character. -/
def startPlace (marks : List Mark) (length column : Nat) : Nat :=
  column + inserted marks length (column + 1)

/-- Where a drawn column is now that ends a mark: straight behind the last character before it. -/
def stopPlace (marks : List Mark) (length column : Nat) : Nat :=
  column + inserted marks length column

def Mark.Touches (mark : Mark) (length : Nat) : Prop :=
  mark.start < length ∧ mark.start < mark.stop

section
variable {marks : List Mark} {length column : Nat}

theorem inserted_concat (marks : List Mark) (length : Nat) (mark : Mark) (column : Nat) :
    inserted (marks ++ [mark]) length column = inserted marks length column +
      ((if mark.start < column then (callText mark).length else 0) +
        if min mark.stop length < column then 1 else 0) := by
  simp [inserted]

theorem inserted_mono (marks : List Mark) (length : Nat) {low high : Nat} (le : low ≤ high) :
    inserted marks length low ≤ inserted marks length high := by
  induction marks with
  | nil => exact Nat.le_refl _
  | cons mark marks ih =>
    simp only [inserted, List.map_cons, List.sum_cons] at ih ⊢
    split_ifs <;> omega

theorem inserted_succ (marks : List Mark) (length column : Nat) :
    inserted marks length (column + 1) = inserted marks length column +
      (openings marks column).length +
        (marks.filter fun mark => min mark.stop length = column).length := by
  induction marks with
  | nil => rfl
  | cons mark marks ih =>
    simp only [inserted, openings, List.map_cons, List.sum_cons] at ih ⊢
    rw [ih]
    by_cases starts : mark.start = column <;> by_cases stops : min mark.stop length = column
    all_goals simp only [List.filter_cons, starts, stops, decide_true, decide_false, if_true,
      List.flatMap_cons, List.length_append, List.length_cons, Bool.false_eq_true, if_false]
    all_goals split_ifs <;> omega

theorem inserted_zero (touch : ∀ mark ∈ marks, mark.Touches length) :
    inserted marks length 0 = 0 ∧ (marks.filter fun mark => min mark.stop length = 0) = [] := by
  refine ⟨by simp [inserted, List.map_const'], List.filter_eq_nil_iff.mpr fun mark member => ?_⟩
  have := touch mark member
  simp only [Mark.Touches] at this
  simp only [decide_eq_true_eq]
  omega

theorem length_weave (touch : ∀ mark ∈ marks, mark.Touches length) (before : List Char) :
    (weave (openings marks) (closings marks length) 0 before).length +
        (openings marks before.length).length = startPlace marks length before.length := by
  induction before using List.reverseRecOn with
  | nil =>
    have first := inserted_succ marks length 0
    rw [(inserted_zero touch).1, (inserted_zero touch).2] at first
    simpa [weave, startPlace] using first.symm
  | append_singleton before c ih =>
    have next := inserted_succ marks length (before.length + 1)
    rw [weave_append, weave_cons]
    simp only [startPlace, closings, weave, List.length_append, List.length_cons, List.length_nil,
      List.length_map, List.zipIdx_nil, List.flatMap_nil, Nat.zero_add] at ih next ⊢
    omega

theorem openings_length (touch : ∀ mark ∈ marks, mark.Touches length) :
    openings marks length = [] := by
  rw [openings, List.filter_eq_nil_iff.mpr, List.flatMap_nil]
  intro mark member
  have := (touch mark member).1
  simp only [decide_eq_true_eq]
  omega

theorem length_interleave {line : List Char} (touch : ∀ mark ∈ marks, mark.Touches line.length) :
    (interleave marks line).length = startPlace marks line.length line.length := by
  have whole := length_weave touch line
  rw [openings_length touch] at whole
  exact whole

def placedInsertion (marks : List Mark) (length : Nat) (mark : Mark) : Insertion where
  line := mark.line
  start := startPlace marks length mark.start
  stop := min (stopPlace marks length mark.stop) (startPlace marks length length)
  opening := callText mark

theorem startPlace_lt_startPlace_iff {first second : Nat} :
    startPlace marks length first < startPlace marks length second ↔ first < second := by
  unfold startPlace
  rcases Nat.lt_or_ge first second with less | more
  · have := inserted_mono marks length (show first + 1 ≤ second + 1 by omega)
    omega
  · have := inserted_mono marks length (show second + 1 ≤ first + 1 by omega)
    omega

theorem stopPlace_le_startPlace_iff {first second : Nat} :
    stopPlace marks length first ≤ startPlace marks length second ↔ first ≤ second := by
  unfold startPlace stopPlace
  rcases Nat.lt_or_ge second first with less | more
  · have := inserted_mono marks length (show second + 1 ≤ first by omega)
    omega
  · have := inserted_mono marks length (show first ≤ second + 1 by omega)
    omega

theorem stopPlace_le_stopPlace_iff {first second : Nat} :
    stopPlace marks length first ≤ stopPlace marks length second ↔ first ≤ second := by
  unfold stopPlace
  rcases Nat.lt_or_ge second first with less | more
  · have := inserted_mono marks length (Nat.le_of_lt less)
    omega
  · have := inserted_mono marks length more
    omega

theorem moveStart_startPlace {mark : Mark} (touches : mark.Touches length) (column : Nat) :
    (placedInsertion marks length mark).moveStart (startPlace marks length column) =
      startPlace (marks ++ [mark]) length column := by
  have inside : startPlace marks length column < (placedInsertion marks length mark).stop ↔
      column < min mark.stop length := by
    rw [placedInsertion, Nat.lt_min, ← Nat.not_le, stopPlace_le_startPlace_iff,
      startPlace_lt_startPlace_iff]
    omega
  have front : startPlace marks length column < (placedInsertion marks length mark).start ↔
      column < mark.start := startPlace_lt_startPlace_iff
  unfold Mark.Touches at touches
  rw [Insertion.moveStart, if_congr front rfl (if_congr inside rfl rfl)]
  simp only [startPlace, inserted_concat, placedInsertion]
  split_ifs <;> omega

theorem moveStop_stopPlace {mark : Mark} (touches : mark.Touches length) (column : Nat) :
    (placedInsertion marks length mark).moveStop (stopPlace marks length column) =
      stopPlace (marks ++ [mark]) length column := by
  have inside : stopPlace marks length column ≤ (placedInsertion marks length mark).stop ↔
      column ≤ min mark.stop length := by
    rw [placedInsertion, Nat.le_min, stopPlace_le_stopPlace_iff, stopPlace_le_startPlace_iff]
    omega
  have front : stopPlace marks length column ≤ (placedInsertion marks length mark).start ↔
      column ≤ mark.start := stopPlace_le_startPlace_iff
  unfold Mark.Touches at touches
  rw [Insertion.moveStop, if_congr front rfl (if_congr inside rfl rfl)]
  simp only [stopPlace, inserted_concat, placedInsertion]
  split_ifs <;> omega

theorem openings_concat (marks : List Mark) (mark : Mark) :
    openings (marks ++ [mark]) =
      Function.update (openings marks) mark.start (openings marks mark.start ++ callText mark) := by
  funext column
  rcases eq_or_ne column mark.start with rfl | other
  · simp [openings]
  · simp [openings, Function.update_of_ne other, other.symm]

theorem closings_concat {mark : Mark} (touches : mark.Touches length) {first second : List Char}
    (split : closings marks length (min mark.stop length - 1) = first ++ second) :
    closings (marks ++ [mark]) length =
      Function.update (closings marks length) (min mark.stop length - 1)
        (first ++ [')'] ++ second) := by
  -- all closings of one column look alike, so a further one may stand before or behind them
  unfold Mark.Touches at touches
  funext column
  rcases eq_or_ne column (min mark.stop length - 1) with rfl | other
  · have last : min mark.stop length = min mark.stop length - 1 + 1 := by omega
    have more : closings (marks ++ [mark]) length (min mark.stop length - 1) =
        closings marks length (min mark.stop length - 1) ++ [')'] := by
      simp only [closings, List.filter_append, List.map_append]
      rw [List.filter_cons_of_pos (by simpa using last)]
      simp
    have alike : ∀ c ∈ second, c = ')' := by
      intro c member
      have : c ∈ closings marks length (min mark.stop length - 1) := by simp [split, member]
      simp only [closings, List.mem_map] at this
      obtain ⟨_, _, same⟩ := this
      exact same.symm
    rw [Function.update_self, more, split, List.eq_replicate_of_mem alike, List.append_assoc,
      List.append_assoc, ← List.replicate_succ', List.replicate_succ, List.singleton_append]
  · have elsewhere : ¬ min mark.stop length = column + 1 := by omega
    rw [Function.update_of_ne other]
    simp [closings, elsewhere]

theorem apply_eq_insertAt {insertion : Insertion} {line : List Char}
    (ordered : insertion.start ≤ insertion.stop) (room : insertion.stop ≤ line.length) :
    insertion.apply line =
      insertAt insertion.start insertion.opening (insertAt insertion.stop [')'] line) := by
  have left : (line.take insertion.stop).length = insertion.stop := by simp; omega
  unfold Insertion.apply insertAt
  rw [List.append_assoc (line.take insertion.stop),
    List.take_append_of_le_length (by omega), List.drop_append_of_le_length (by omega),
    List.take_take, Nat.min_eq_left ordered, List.drop_take]
  simp

theorem weave_closings_concat {line : List Char} {mark : Mark}
    (touch : ∀ other ∈ marks, other.Touches line.length) (touches : mark.Touches line.length) :
    weave (openings marks) (closings (marks ++ [mark]) line.length) 0 line =
      insertAt (placedInsertion marks line.length mark).stop [')'] (interleave marks line) := by
  have within := touches
  unfold Mark.Touches at within
  have inside : min mark.stop line.length - 1 < line.length := by omega
  have size : (line.take (min mark.stop line.length - 1)).length =
      min mark.stop line.length - 1 := by
    rw [List.length_take]
    omega
  have place := length_weave touch (line.take (min mark.stop line.length - 1))
  rw [size] at place
  rcases Nat.lt_or_ge line.length mark.stop with hangs | fits
  · rw [closings_concat touches (List.append_nil _).symm,
      weave_insert_behind inside (List.append_nil _).symm, place]
    have stop : (placedInsertion marks line.length mark).stop =
        startPlace marks line.length line.length := by
      refine Nat.min_eq_right (Nat.le_of_lt (Nat.lt_of_not_le fun le => ?_))
      have := stopPlace_le_startPlace_iff.mp le
      omega
    have ends := inserted_succ marks line.length line.length
    rw [openings_length touch] at ends
    have last : line.length - 1 + 1 = line.length := by omega
    rw [stop, Nat.min_eq_right (Nat.le_of_lt hangs)]
    simp only [startPlace, closings, last, List.length_map, List.length_nil] at ends ⊢
    congr 1
    omega
  · rw [closings_concat touches (List.nil_append _).symm,
      weave_insert_behind inside (List.nil_append _).symm, place]
    have last : mark.stop - 1 + 1 = mark.stop := by omega
    have stop : (placedInsertion marks line.length mark).stop =
        startPlace marks line.length (mark.stop - 1) + 1 := by
      have room : stopPlace marks line.length mark.stop ≤ startPlace marks line.length line.length :=
        stopPlace_le_startPlace_iff.mpr fits
      simp only [placedInsertion, Nat.min_eq_left room]
      rw [stopPlace, startPlace, last]
      omega
    rw [stop, Nat.min_eq_left fits]
    rfl

theorem interleave_concat {line : List Char} {mark : Mark}
    (touch : ∀ other ∈ marks, other.Touches line.length) (touches : mark.Touches line.length) :
    interleave (marks ++ [mark]) line =
      (placedInsertion marks line.length mark).apply (interleave marks line) := by
  have within := touches
  unfold Mark.Touches at within
  have ordered : (placedInsertion marks line.length mark).start ≤
      (placedInsertion marks line.length mark).stop := by
    refine Nat.le_min.mpr ⟨Nat.le_of_lt (Nat.lt_of_not_le fun le => ?_),
      Nat.le_of_lt (startPlace_lt_startPlace_iff.mpr within.1)⟩
    have := stopPlace_le_startPlace_iff.mp le
    omega
  have room : (placedInsertion marks line.length mark).stop ≤ (interleave marks line).length := by
    rw [length_interleave touch]
    exact Nat.min_le_right _ _
  -- the closing of the mark is behind the part of the line in front of its opening
  have left : weave (openings marks) (closings (marks ++ [mark]) line.length) 0
      (line.take mark.start) =
        weave (openings marks) (closings marks line.length) 0 (line.take mark.start) := by
    rw [closings_concat touches (List.nil_append _).symm]
    refine weave_congr fun place _ low => ⟨rfl, Function.update_of_ne ?_ _ _⟩
    simp only [List.length_take] at low
    omega
  have size : (line.take mark.start).length = mark.start := by simp; omega
  have place := length_weave touch (line.take mark.start)
  rw [size] at place
  rw [apply_eq_insertAt ordered room, ← weave_closings_concat touch touches, interleave,
    openings_concat, weave_insert_front within.1, left, place]
  rfl

def touching (marks : List Mark) (index length : Nat) : List Mark :=
  marks.filter fun mark => mark.line = index ∧ mark.start < length

def Mark.placed (mark : Mark) (others : List Mark) (length : Nat) : Mark :=
  { mark with
    start := startPlace others length mark.start
    stop := stopPlace others length mark.stop }

theorem touches_of_mem_touching (wide : ∀ mark ∈ marks, mark.start < mark.stop)
    (index length : Nat) : ∀ mark ∈ touching marks index length, mark.Touches length := by
  intro mark member
  obtain ⟨listed, touch⟩ := List.mem_filter.mp member
  exact ⟨(of_decide_eq_true touch).2, wide mark listed⟩

theorem touching_concat (marks : List Mark) (mark : Mark) (index length : Nat) :
    touching (marks ++ [mark]) index length = touching marks index length ++
      if mark.line = index ∧ mark.start < length then [mark] else [] := by
  unfold touching
  rw [List.filter_append]
  by_cases touch : mark.line = index ∧ mark.start < length <;> simp [touch]

theorem interleave_nil (line : List Char) : interleave [] line = line := by
  have plain (column : Nat) : weave (openings []) (closings [] line.length) column line = line := by
    generalize line.length = length
    induction line generalizing column with
    | nil => rfl
    | cons c rest ih => rw [weave_cons, ih]; rfl
  exact plain 0

theorem insertion?_placed {mark : Mark} (wide : mark.start < mark.stop) (others : List Mark)
    (length : Nat) :
    insertion? (mark.placed others length) (startPlace others length length) =
      if mark.start < length then some (placedInsertion others length mark) else none := by
  have order : startPlace others length mark.start < startPlace others length length ↔
      mark.start < length := startPlace_lt_startPlace_iff
  have width : stopPlace others length mark.stop ≤ startPlace others length mark.start ↔
      mark.stop ≤ mark.start := stopPlace_le_startPlace_iff
  by_cases inside : mark.start < length
  · have start : min (mark.placed others length).start (startPlace others length length) =
        startPlace others length mark.start := Nat.min_eq_left (Nat.le_of_lt (order.mpr inside))
    have room : min (mark.placed others length).start (startPlace others length length) <
        min (mark.placed others length).stop (startPlace others length length) := by
      rw [start]
      refine Nat.lt_min.mpr ⟨Nat.lt_of_not_le fun le => ?_, order.mpr inside⟩
      have := width.mp le
      omega
    rw [if_pos inside, insertion?]
    exact (if_pos room).trans (by rw [start, opening_eq_callText]; rfl)
  · have outside : ¬ min (mark.placed others length).start (startPlace others length length) <
        min (mark.placed others length).stop (startPlace others length length) := by
      have := mt order.mp inside
      simp only [Mark.placed]
      omega
    rw [if_neg inside, insertion?]
    exact if_neg outside

/-- After a number of marks every line is woven from the line as it was drawn, and the
insertions so far bring every mark to its place among them. -/
structure Placed (drawn : List (List Char)) (done : List Mark) (progress : Progress) : Prop where
  lines : ∀ index, progress.lines[index]? = drawn[index]?.map fun line =>
    interleave (touching done index line.length) line
  moved : ∀ mark, progress.insertions.foldl (fun mark insertion => insertion.move mark) mark =
    mark.placed (touching done mark.line (drawn.getD mark.line []).length)
      (drawn.getD mark.line []).length

theorem Placed.start (drawn : List (List Char)) : Placed drawn [] ⟨drawn, []⟩ where
  lines index := by simp [touching, interleave_nil]
  moved mark := by simp [touching, Mark.placed, startPlace, stopPlace, inserted]

theorem Placed.getD_lines {drawn : List (List Char)} {done : List Mark} {progress : Progress}
    (placed : Placed drawn done progress) (index : Nat) :
    progress.lines.getD index [] =
      interleave (touching done index (drawn.getD index []).length) (drawn.getD index []) := by
  rw [List.getD_eq_getElem?_getD, List.getD_eq_getElem?_getD, placed.lines]
  cases drawn[index]? <;> rfl

theorem Placed.past {drawn : List (List Char)} {done : List Mark} {progress : Progress}
    (placed : Placed drawn done progress) {mark : Mark}
    (past : (drawn.getD mark.line []).length ≤ mark.start) :
    Placed drawn (done ++ [mark]) progress := by
  have same (index : Nat) : touching (done ++ [mark]) index (drawn.getD index []).length =
      touching done index (drawn.getD index []).length := by
    rw [touching_concat, if_neg, List.append_nil]
    rintro ⟨rfl, inside⟩
    omega
  refine ⟨fun index => ?_, fun other => by rw [same]; exact placed.moved other⟩
  have here := same index
  rw [List.getD_eq_getElem?_getD] at here
  rw [placed.lines]
  cases found : drawn[index]? with
  | none => rfl
  | some line =>
    rw [found, Option.getD_some] at here
    rw [Option.map_some, Option.map_some, here]

theorem Placed.insert {drawn : List (List Char)} {done : List Mark} {progress : Progress}
    (placed : Placed drawn done progress) {mark : Mark} {line : List Char}
    (target : drawn[mark.line]? = some line) (touches : mark.Touches line.length)
    (others : ∀ other ∈ done, other.start < other.stop) :
    Placed drawn (done ++ [mark])
      { lines := progress.lines.modify mark.line
          (placedInsertion (touching done mark.line line.length) line.length mark).apply
        insertions := progress.insertions ++
          [placedInsertion (touching done mark.line line.length) line.length mark] } := by
  have touch := touches_of_mem_touching others mark.line line.length
  have here : touching (done ++ [mark]) mark.line line.length =
      touching done mark.line line.length ++ [mark] := by
    rw [touching_concat, if_pos ⟨rfl, touches.1⟩]
  have elsewhere (index length : Nat) (other : mark.line ≠ index) :
      touching (done ++ [mark]) index length = touching done index length := by
    rw [touching_concat, if_neg fun both => other both.1, List.append_nil]
  constructor
  · intro index
    rw [List.getElem?_modify, placed.lines]
    by_cases same : mark.line = index
    · subst same
      rw [target, Option.map_some, Option.map_some, here, interleave_concat touch touches]
      simp
    · cases drawn[index]? with
      | none => simp
      | some other => simp [same, elsewhere index other.length same]
  · intro other
    rw [List.foldl_append, placed.moved]
    by_cases same : other.line = mark.line
    · have length : (drawn.getD mark.line []).length = line.length := by
        rw [List.getD_eq_getElem?_getD, target, Option.getD_some]
      simp only [List.foldl_cons, List.foldl_nil, Insertion.move]
      rw [if_pos (by exact same)]
      simp only [Mark.placed, same, length, here]
      rw [moveStart_startPlace touches, moveStop_stopPlace touches]
    · rw [elsewhere other.line _ (Ne.symm same)]
      exact if_neg same

theorem mark_of_insertion {progress : Progress} {mark moved : Mark} {insertion : Insertion}
    (brought : progress.insertions.foldl (fun mark insertion => insertion.move mark) mark = moved)
    (found : insertion? moved (progress.lines.getD moved.line []).length = some insertion) :
    progress.mark mark =
      { lines := progress.lines.modify moved.line insertion.apply
        insertions := progress.insertions ++ [insertion] } := by
  rw [Progress.mark]
  simp only [brought, found]

theorem mark_of_none {progress : Progress} {mark moved : Mark}
    (brought : progress.insertions.foldl (fun mark insertion => insertion.move mark) mark = moved)
    (past : insertion? moved (progress.lines.getD moved.line []).length = none) :
    progress.mark mark = progress := by
  rw [Progress.mark]
  simp only [brought, past]

theorem Placed.insertion?_mark {drawn : List (List Char)} {done : List Mark} {progress : Progress}
    (placed : Placed drawn done progress) {mark : Mark} (wide : mark.start < mark.stop)
    (others : ∀ other ∈ done, other.start < other.stop) :
    insertion? (mark.placed (touching done mark.line (drawn.getD mark.line []).length)
        (drawn.getD mark.line []).length) (progress.lines.getD mark.line []).length =
      if mark.start < (drawn.getD mark.line []).length then
        some (placedInsertion (touching done mark.line (drawn.getD mark.line []).length)
          (drawn.getD mark.line []).length mark)
      else none := by
  have touch := touches_of_mem_touching others mark.line (drawn.getD mark.line []).length
  rw [placed.getD_lines, length_interleave touch]
  exact insertion?_placed wide _ _

theorem Placed.mark {drawn : List (List Char)} {done : List Mark} {progress : Progress}
    (placed : Placed drawn done progress) {mark : Mark} (wide : mark.start < mark.stop)
    (others : ∀ other ∈ done, other.start < other.stop) :
    Placed drawn (done ++ [mark]) (progress.mark mark) := by
  have placing := placed.insertion?_mark wide others
  by_cases inside : mark.start < (drawn.getD mark.line []).length
  · rw [if_pos inside] at placing
    rw [mark_of_insertion (placed.moved mark) placing]
    cases target : drawn[mark.line]? with
    | none => simp [target] at inside
    | some line =>
      have same : drawn.getD mark.line [] = line := by simp [target]
      rw [same] at inside ⊢
      exact placed.insert target ⟨inside, wide⟩ others
  · rw [if_neg inside] at placing
    rw [mark_of_none (placed.moved mark) placing]
    exact placed.past (Nat.le_of_not_lt inside)

theorem Placed.foldl_mark {drawn : List (List Char)} (rest done : List Mark) (progress : Progress)
    (placed : Placed drawn done progress) (wide : ∀ mark ∈ done ++ rest, mark.start < mark.stop) :
    Placed drawn (done ++ rest) (rest.foldl Progress.mark progress) := by
  induction rest generalizing done progress with
  | nil => simpa using placed
  | cons mark rest ih =>
    have next := placed.mark (wide mark (by simp)) fun other member => wide other (by simp [member])
    have tail := ih (done ++ [mark]) (progress.mark mark) next (by simpa using wide)
    simpa using tail

end

theorem arrow?_pos {text label : List Char} {length : Nat}
    (found : arrow? text = some (label, length)) : 0 < length := by
  unfold arrow? at found
  split at found
  · dsimp only at found
    split at found
    · cases found
    · split at found
      · cases found
        omega
      · split at found
        · cases found
          omega
        · cases found
  · cases found

theorem spans_wide (column : Nat) (text : List Char) :
    ∀ span ∈ spans column text, span.start < span.stop := by
  fun_induction spans column text with
  | case1 => simp
  | case2 column c rest label length found ih =>
    have := arrow?_pos found
    intro span member
    rcases List.mem_cons.mp member with rfl | later
    · simp only; omega
    · exact ih span later
  | case3 column c rest _ ih => exact ih

theorem marks_wide (drawn : List (List Char)) : ∀ mark ∈ marks drawn, mark.start < mark.stop := by
  intro mark member
  obtain ⟨drawnMarks, listed, member⟩ := List.mem_flatten.mp member
  obtain ⟨⟨line, index⟩, _, rfl⟩ := List.mem_map.mp listed
  simp only [lineMarks] at member
  split at member
  · split at member
    · obtain ⟨span, found, rfl⟩ := List.mem_map.mp member
      exact spans_wide 0 line span found
    · cases member
  · cases member

theorem append_cut_unique {α : Type} (test : α → Bool) {first second first' second' : List α}
    (same : first ++ second = first' ++ second') (fail : ∀ a ∈ first, test a = false)
    (pass : ∀ a ∈ second, test a = true) (fail' : ∀ a ∈ first', test a = false)
    (pass' : ∀ a ∈ second', test a = true) : first = first' ∧ second = second' := by
  induction first generalizing first' with
  | nil =>
    cases first' with
    | nil => exact ⟨rfl, same⟩
    | cons a rest =>
      have : a ∈ second := by rw [List.nil_append] at same; simp [same]
      simp [pass a this] at fail'
  | cons a rest ih =>
    cases first' with
    | nil =>
      have : a ∈ second' := by rw [List.nil_append] at same; simp [← same]
      simp [pass' a this] at fail
    | cons b rest' =>
      obtain ⟨rfl, tail⟩ := List.cons_eq_cons.mp same
      obtain ⟨rfl, rfl⟩ := ih tail (fun c member => fail c (by simp [member]))
        (fun c member => fail' c (by simp [member]))
      exact ⟨rfl, rfl⟩

theorem filter_mergeSort {α : Type} {le : α → α → Bool}
    (trans : ∀ a b c, le a b → le b c → le a c) (total : ∀ a b, le a b || le b a)
    (keep : α → Bool) (list : List α) :
    (list.mergeSort le).filter keep = (list.filter keep).mergeSort le := by
  induction list with
  | nil => simp
  | cons a list ih =>
    obtain ⟨first, second, whole, rest, before⟩ := List.mergeSort_cons trans total a list
    have sorted := List.pairwise_mergeSort trans total (a :: list)
    rw [whole, List.pairwise_append, List.pairwise_cons] at sorted
    rw [rest, List.filter_append] at ih
    cases kept : keep a with
    | false => rw [whole, List.filter_cons_of_neg (by simp [kept]), List.filter_append,
        List.filter_cons_of_neg (by simp [kept]), ih]
    | true =>
      obtain ⟨first', second', whole', rest', before'⟩ :=
        List.mergeSort_cons trans total a (list.filter keep)
      have sorted' := List.pairwise_mergeSort trans total (a :: list.filter keep)
      rw [whole', List.pairwise_append, List.pairwise_cons] at sorted'
      have cut := append_cut_unique (le a) (ih.trans rest')
        (fun b member => by simpa using before b (List.mem_filter.mp member).1)
        (fun b member => sorted.2.1.1 b (List.mem_filter.mp member).1)
        (fun b member => by simpa using before' b member) (fun b member => sorted'.2.1.1 b member)
      rw [whole, List.filter_append, List.filter_cons_of_pos kept, List.filter_cons_of_pos kept,
        whole', cut.1, cut.2]

theorem widestFirst_filter (keep : Mark → Bool) (marks : List Mark) :
    (widestFirst marks).filter keep = widestFirst (marks.filter keep) := by
  refine filter_mergeSort ?_ ?_ keep marks
  · intro first second third
    simp only [decide_eq_true_eq]
    omega
  · intro first second
    simp only [Bool.or_eq_true, decide_eq_true_eq]
    omega

theorem pairwise_widestFirst (marks : List Mark) :
    (widestFirst marks).Pairwise fun first second => second.width ≤ first.width := by
  refine (List.pairwise_mergeSort ?_ ?_ marks).imp of_decide_eq_true
  · intro first second third
    simp only [decide_eq_true_eq]
    omega
  · intro first second
    simp only [Bool.or_eq_true, decide_eq_true_eq]
    omega

theorem widestFirst_of_width {marks : List Mark} (width : Nat)
    (same : ∀ mark ∈ marks, mark.width = width) : widestFirst marks = marks := by
  refine List.mergeSort_of_pairwise (List.pairwise_of_forall_mem_list fun first one second other => ?_)
  rw [same first one, same second other]
  simp

def marksOn (drawn : List (List Char)) (index length : Nat) : List Mark :=
  widestFirst (touching (marks drawn) index length)

/-- Every line is the drawn line with the calls of its marks between its characters: the texts
`label(comment;` of the marks that start at a column in front of its character, the wider ones and
of equally wide ones the earlier ones first, and behind it a parenthesis for every mark that ends
there. A line that no mark touches stays as it is. -/
theorem braced_lines_interleave (text : List Char) :
    ((braced text).lines = (lines text).mapIdx fun index line =>
      interleave (marksOn (lines text) index line.length) line) ∧
    (∀ index length width,
      ((marksOn (lines text) index length).Pairwise fun first second =>
        second.stop - second.start ≤ first.stop - first.start) ∧
      (marksOn (lines text) index length).filter (fun mark => mark.stop - mark.start = width) =
        (touching (marks (lines text)) index length).filter
          fun mark => mark.stop - mark.start = width) ∧
    ∀ line, interleave [] line = line := by
  have wide : ∀ mark ∈ widestFirst (marks (lines text)), mark.start < mark.stop :=
    fun mark member => marks_wide (lines text) mark (List.mem_mergeSort.mp member)
  have placed := Placed.foldl_mark (widestFirst (marks (lines text))) [] ⟨lines text, []⟩
    (Placed.start (lines text)) wide
  refine ⟨List.ext_getElem? fun index => ?_, fun index length width => ⟨?_, ?_⟩, interleave_nil⟩
  · rw [braced, placed.lines, List.getElem?_mapIdx]
    simp only [marksOn, touching, List.nil_append, widestFirst_filter]
  · exact pairwise_widestFirst _
  · rw [marksOn, widestFirst_filter, widestFirst_of_width width]
    intro mark member
    exact of_decide_eq_true (List.mem_filter.mp member).2

theorem braced_lines_nested :
    (braced "abcdefgh\n <---->\n<-- x -->".toList).lines[0]? =
      some "underbrace(x;aunderbrace('';bcdefg)h)".toList := by
  have first : (lines "abcdefgh\n <---->\n<-- x -->".toList)[0]? = some "abcdefgh".toList := by
    decide +kernel
  have drawn : marks (lines "abcdefgh\n <---->\n<-- x -->".toList) =
      [⟨.under, 0, 1, 7, []⟩, ⟨.under, 0, 0, 9, ['x']⟩] := by decide +kernel
  have sorted : widestFirst (touching [⟨.under, 0, 1, 7, []⟩, ⟨.under, 0, 0, 9, ['x']⟩] 0
      "abcdefgh".toList.length) = [⟨.under, 0, 0, 9, ['x']⟩, ⟨.under, 0, 1, 7, []⟩] := by
    simp [widestFirst, touching, Mark.width, List.mergeSort]
  rw [(braced_lines_interleave _).1, List.getElem?_mapIdx, first, Option.map_some, marksOn, drawn,
    sorted]
  decide +kernel

end PlainMath.Arrow
