import PlainMath.Proofs.Grammar.Accounting
import PlainMath.Proofs.Grammar.Closing

/-! Balanced brackets are read as they are nested. Texts of digits and well-nested groups are
spelled from their structure, and reading gives this structure back: whatever the nesting, the
rules inside a group stop in front of its own closer and nowhere else. -/
namespace PlainMath

structure DigitRun where
  chars : List Char
  nonempty : chars ≠ []
  digits : ∀ c ∈ chars, c.isDigit = true

theorem DigitRun.eq_cons (run : DigitRun) :
    ∃ c rest, run.chars = c :: rest ∧ c.isDigit = true := by
  cases shape : run.chars with
  | nil => exact absurd shape run.nonempty
  | cons c rest => exact ⟨c, rest, rfl, run.digits c (by simp [shape])⟩

/-- The pairs of delimiters that open where a term or an operator is expected, and whose closers
no character can double. -/
inductive Pair where
  | round
  | square
  | curly
  | floor
  | norm
deriving DecidableEq, Repr

namespace Pair

def bracket : Pair → Bracket
  | .round => { opener := "(", closer := ")", glyph := "(" }
  | .square => { opener := "[", closer := "]", glyph := "[" }
  | .curly => { opener := "\x7b", closer := "\x7d", glyph := "\x7b" }
  | .floor => { opener := "|_", closer := "_|", glyph := "&lfloor;" }
  | .norm => { opener := "||:", closer := ":||", glyph := "&par;" }

def opener (pair : Pair) : List Char := pair.bracket.opener.toList

def closer (pair : Pair) : List Char := pair.bracket.closer.toList

def left : Pair → String
  | .round => "("
  | .square => "["
  | .curly => "\x7b"
  | .floor => "&lfloor;"
  | .norm => "&par;"

def right : Pair → String
  | .round => ")"
  | .square => "]"
  | .curly => "\x7d"
  | .floor => "&rfloor;"
  | .norm => "&par;"

theorem left_eq (pair : Pair) : pair.left = pair.bracket.glyph := by
  cases pair <;> rfl

theorem right_eq (pair : Pair) : pair.right = pair.bracket.closerGlyph := by
  cases pair <;> rfl

theorem bracket_mem (pair : Pair) : pair.bracket ∈ Bracket.all := by
  cases pair <;> decide

end Pair

/-- A sequence of digit runs and groups in which no two digit runs are neighbours. -/
inductive Nesting where
  | nothing
  | digits (run : DigitRun)
  | group (pair : Pair) (inside behind : Nesting)
  | digitsGroup (run : DigitRun) (pair : Pair) (inside behind : Nesting)

namespace Nesting

def spelling : Nesting → List Char
  | .nothing => []
  | .digits run => run.chars
  | .group pair inside behind =>
    pair.opener ++ (inside.spelling ++ (pair.closer ++ behind.spelling))
  | .digitsGroup run pair inside behind =>
    run.chars ++ (pair.opener ++ (inside.spelling ++ (pair.closer ++ behind.spelling)))

/-- No items are nothing, a single one stands for itself, and several are a cluster. -/
def joined? : List Tree → Option Tree
  | [] => none
  | [only] => some only
  | items => some (.cluster items)

def items : Nesting → List Tree
  | .nothing => []
  | .digits run => [.number (String.ofList run.chars)]
  | .group pair inside behind =>
    .bracketed pair.left pair.right (joined? inside.items) :: behind.items
  | .digitsGroup run pair inside behind =>
    .number (String.ofList run.chars) ::
      .bracketed pair.left pair.right (joined? inside.items) :: behind.items

def tree (nesting : Nesting) : Tree := (joined? nesting.items).getD (.grid [])

theorem ofCluster?_eq_joined? (items : List Tree) : Tree.ofCluster? items = joined? items := by
  rcases items with _ | ⟨first, _ | ⟨second, rest⟩⟩ <;> rfl

end Nesting

def startsItem (c : Char) : Bool :=
  c.isDigit || c == '(' || c == '[' || c == '\x7b' || c == '|'

namespace Cursor

/-- In front of the closer of a pair that is awaited, or at the end outside of brackets. -/
inductive Halted : Cursor → Prop
  | ended (term : Bool) : Halted ⟨[], term, ""⟩
  | closer (pair : Pair) (behind : List Char) (term : Bool) :
      Halted ⟨pair.closer ++ behind, term, pair.bracket.closer⟩

end Cursor

namespace Nesting

theorem numeralTail_append {chars behind : List Char} (digits : ∀ c ∈ chars, c.isDigit = true)
    (other : ∀ c ∈ behind.head?, c.isDigit = false ∧ Lexeme.isSeparator c = false) :
    Lexeme.numeralTail (chars ++ behind) = chars := by
  induction chars with
  | nil =>
    cases behind with
    | nil => rfl
    | cons c behind =>
      obtain ⟨digit, separator⟩ := other c rfl
      simp [Lexeme.numeralTail, digit, separator]
  | cons c chars ih =>
    rw [List.forall_mem_cons] at digits
    simp [Lexeme.numeralTail, digits.1, ih digits.2]

theorem number?_append (run : DigitRun) {behind : List Char}
    (other : ∀ c ∈ behind.head?, c.isDigit = false ∧ Lexeme.isSeparator c = false) :
    Lexeme.number? (run.chars ++ behind) =
      some (.number (String.ofList run.chars), run.chars.length) := by
  obtain ⟨chars, nonempty, digits⟩ := run
  cases chars with
  | nil => exact absurd rfl nonempty
  | cons c chars =>
    rw [List.forall_mem_cons] at digits
    simp [Lexeme.number?, digits.1, numeralTail_append digits.2 other]

end Nesting

namespace Cursor
variable {cursor : Cursor}

theorem open?_of_opener {pair : Pair} {behind : List Char}
    (here : cursor.rest = pair.opener ++ behind) :
    cursor.open? = some (pair.bracket, cursor.advance pair.opener.length) := by
  cases pair <;>
    simp_all [open?, Bracket.all, Pair.opener, Pair.bracket, eat?, startsWith]

/-- Not at a blank, a semicolon or a dot, which are the business of rows and grids. -/
def Calm (cursor : Cursor) : Prop := ∀ c ∈ cursor.rest.head?, c ≠ ' ' ∧ c ≠ ';' ∧ c ≠ '.'

theorem startsWith_of_head {text : String} (other : text.toList.head? ≠ cursor.rest.head?) :
    cursor.startsWith text = false := by
  rw [Bool.eq_false_iff]
  intro starts
  obtain ⟨spelled, behind, whole⟩ := startsWith_iff.mp starts
  cases shape : text.toList with
  | nil => exact spelled (by simpa using shape)
  | cons c letters =>
    rw [← whole, shape] at other
    exact other rfl

theorem eat?_of_head {text : String} (other : text.toList.head? ≠ cursor.rest.head?) :
    cursor.eat? text = none := by
  simp [eat?, startsWith_of_head other]

theorem open?_eq_none
    (other : ∀ bracket ∈ Bracket.all, bracket.opener.toList.head? ≠ cursor.rest.head?) :
    cursor.open? = none := by
  rw [open?, List.findSome?_eq_none_iff]
  intro bracket listed
  simp [eat?_of_head (other bracket listed)]

theorem Halted.calm (halted : cursor.Halted) : cursor.Calm := by
  cases halted with
  | ended => simp [Calm]
  | closer pair behind => cases pair <;> simp [Calm, Pair.closer, Pair.bracket]

theorem Halted.not_atCloser {last : Cursor} (halted : last.Halted)
    (same : cursor.closer = last.closer) {c : Char} (first : cursor.rest.head? = some c)
    (item : startsItem c = true) : cursor.atCloser = false := by
  have passed (text : String) (other : text.toList.head?.any startsItem = false) :
      cursor.startsWith text = false := by
    refine startsWith_of_head fun same => ?_
    rw [same, first, Option.any_some, item] at other
    cases other
  cases halted with
  | ended => simp [atCloser, startsWith, same]
  | closer pair behind =>
    cases pair <;> simp only [atCloser, same, Pair.bracket]
    all_goals simp [passed ")" (by decide), passed "]" (by decide), passed "\x7d" (by decide),
      passed "_|" (by decide), passed ":||" (by decide)]

theorem Halted.stops (halted : cursor.Halted) : (cursor.atEnd || cursor.atCloser) = true := by
  cases halted with
  | ended => simp [atEnd]
  | closer pair behind =>
    cases pair <;> simp [atCloser, startsWith, Pair.closer, Pair.bracket]

section
variable (calm : cursor.Calm)
include calm

theorem Calm.not_blank : ¬ (cursor.peek = some ' ' ∧ cursor.peekAt 1 ≠ some ' ') := by
  rintro ⟨blank, _⟩
  rw [peek, peekAt, ← List.head?_eq_getElem?] at blank
  exact (calm ' ' blank).1 rfl

theorem Calm.eat?_blanks : cursor.eat? "  " = none :=
  eat?_of_head fun blank => (calm ' ' blank.symm).1 rfl

theorem Calm.eat?_semicolon : cursor.eat? ";" = none :=
  eat?_of_head fun semicolon => (calm ';' semicolon.symm).2.1 rfl

theorem Calm.range?_eq_none : Grammar.range? cursor = none := by
  cases found : Grammar.range? cursor with
  | none => rfl
  | some after =>
    obtain ⟨length, read, _⟩ := Grammar.leaf?_eq_some (Grammar.range?_eq_some found)
    obtain ⟨behind, whole⟩ := (Lexeme.operator?_range read).2
    exact absurd rfl (calm '.' (by rw [← whole]; rfl)).2.2

end
end Cursor

namespace Grammar
variable {depth : Nat} {cursor last : Cursor} {items : List Tree}

theorem collect_atoms_halted (halted : cursor.Halted) :
    (atoms (brackets depth)).collect cursor = ([], cursor) := by
  have stop : (atoms (brackets depth)).step cursor = .stop cursor := by
    simp [atoms, atomStep, halted.stops]
  exact (atoms (brackets depth)).collect_stop stop

theorem collect_row_halted (halted : cursor.Halted) :
    (rowElements (brackets depth)).collect cursor = ([], cursor) := by
  have cluster : cluster? (brackets depth) cursor = none := by
    simp [cluster?, collect_atoms_halted halted, Tree.ofCluster?]
  have stop : (rowElements (brackets depth)).step cursor = .stop cursor := by
    simp [rowElements, rowStep, halted.calm.not_blank, halted.calm.range?_eq_none, cluster]
  exact (rowElements (brackets depth)).collect_stop stop

theorem collect_cells_halted (halted : cursor.Halted) :
    (rowCells (brackets depth)).collect cursor = ([], cursor) := by
  have stop : (rowCells (brackets depth)).step cursor = .stop cursor := by
    simp [rowCells, cellStep, halted.calm.eat?_blanks, row, collect_row_halted halted, Tree.ofRow?]
  exact (rowCells (brackets depth)).collect_stop stop

theorem collect_rows_halted (halted : cursor.Halted) :
    (gridRows (brackets depth)).collect cursor = ([], cursor) := by
  have stop : (gridRows (brackets depth)).step cursor = .stop cursor := by
    simp [gridRows, gridStep, halted.calm.eat?_semicolon, gridRow, collect_cells_halted halted]
  exact (gridRows (brackets depth)).collect_stop stop

theorem collect_atoms_nil (found : (atoms (brackets depth)).collect cursor = ([], last)) :
    cursor = last := by
  cases step : atomStep (brackets depth) cursor with
  | take atom after =>
    rw [(atoms (brackets depth)).collect_take step] at found
    cases found
  | skip after => exact absurd step atomStep_not_skip
  | stop final =>
    rw [(atoms (brackets depth)).collect_stop step] at found
    cases found
    exact (atomStep_stop step).1.symm

theorem grid_of_row {tree : Tree} (calm : cursor.Calm) (halted : last.Halted)
    (found : row (brackets depth) cursor = (some tree, last)) :
    grid (brackets depth) cursor = (tree, last) := by
  have more : cursor.atEnd = false := by
    have := row_shorter (congrArg Prod.fst found)
    cases rest : cursor.rest <;> simp_all [Cursor.atEnd]
  have cells : gridRow (brackets depth) cursor = (some [tree], last) := by
    have take : (rowCells (brackets depth)).step cursor = .take tree last := by
      simp [rowCells, cellStep, more, calm.eat?_blanks, found]
    simp [gridRow, (rowCells (brackets depth)).collect_take take, collect_cells_halted halted]
  have take : (gridRows (brackets depth)).step cursor = .take [tree] last := by
    simp [gridRows, gridStep, more, calm.eat?_semicolon, cells]
  simp [grid, (gridRows (brackets depth)).collect_take take, collect_rows_halted halted,
    Tree.ofRows]

theorem rowStep_of_atoms {tree : Tree} (calm : cursor.Calm)
    (found : (atoms (brackets depth)).collect cursor = (items, last))
    (shape : Tree.ofCluster? items = some tree) :
    (rowElements (brackets depth)).step cursor = .take tree last := by
  have whole : cluster? (brackets depth) cursor = some (tree, last) := by
    rw [cluster?, found, shape, Option.map_some]
  have more : cursor.atEnd = false := by
    have := cluster?_shorter whole
    cases rest : cursor.rest <;> simp_all [Cursor.atEnd]
  simp [rowElements, rowStep, more, calm.not_blank, calm.range?_eq_none, whole]

theorem grid_of_atoms (calm : cursor.Calm) (halted : last.Halted)
    (found : (atoms (brackets depth)).collect cursor = (items, last)) :
    grid (brackets depth) cursor = ((Tree.ofCluster? items).getD .emptyGrid, last) := by
  cases shape : Tree.ofCluster? items with
  | none =>
    have empty : items = [] := by
      unfold Tree.ofCluster? at shape
      split at shape <;> simp_all
    rw [collect_atoms_nil (found.trans (by rw [empty])), grid, collect_rows_halted halted]
    rfl
  | some tree =>
    refine grid_of_row calm halted ?_
    simp [row, (rowElements (brackets depth)).collect_take (rowStep_of_atoms calm found shape),
      collect_row_halted halted, Tree.ofRow?]

theorem run_unopened (unopened : cursor.open? = none) : (brackets depth).run cursor = none := by
  cases depth with
  | zero => rfl
  | succ depth => simp [brackets, bracketed?, unopened]

theorem atomStep_digits (run : DigitRun) {behind : List Char}
    (here : cursor.rest = run.chars ++ behind) (awaited : cursor.atCloser = false)
    (other : ∀ c ∈ behind.head?, c.isDigit = false ∧ Lexeme.isSeparator c = false) :
    atomStep (brackets depth) cursor =
      .take (.number (String.ofList run.chars)) ⟨behind, false, cursor.closer⟩ := by
  have openers : ∀ bracket ∈ Bracket.all, bracket.opener.toList.head?.any Char.isDigit = false := by
    decide
  obtain ⟨first, rest, spelled, digit⟩ := run.eq_cons
  have more : cursor.atEnd = false := by simp [Cursor.atEnd, here, spelled]
  have closed : (brackets depth).run cursor = none := by
    refine run_unopened (Cursor.open?_eq_none fun bracket listed same => ?_)
    have other := openers bracket listed
    rw [same, here, spelled, List.cons_append, List.head?_cons, Option.any_some, digit] at other
    cases other
  have read : atom? (brackets depth) cursor =
      some (.number (String.ofList run.chars), cursor.advance run.chars.length) := by
    simp [atom?, closed, leaf?, here, Nesting.number?_append run other]
  simp [atomStep, more, awaited, read, Tree.isOperator, needsTerm, Cursor.expecting,
    Cursor.advance, here]

theorem isEmptyGrid_items (nesting : Nesting) :
    ∀ item ∈ nesting.items, item.isEmptyGrid = false := by
  intro item member
  induction nesting with
  | nothing => cases member
  | digits run =>
    rw [List.mem_singleton.mp member]
    rfl
  | group pair inside behind _ ih =>
    rcases List.mem_cons.mp member with rfl | member
    · rfl
    · exact ih member
  | digitsGroup run pair inside behind _ ih =>
    rcases List.mem_cons.mp member with rfl | member
    · rfl
    · rcases List.mem_cons.mp member with rfl | member
      · rfl
      · exact ih member

theorem contents_tree (nesting : Nesting) :
    (if nesting.tree.isEmptyGrid then none else some nesting.tree) =
      Nesting.joined? nesting.items := by
  have filled := isEmptyGrid_items nesting
  unfold Nesting.tree
  generalize nesting.items = items at filled
  unfold Nesting.joined?
  split
  · rfl
  · rename_i only
    simp [filled only (by simp)]
  · rfl

theorem atomStep_bracketed (pair : Pair) {inside behind : List Char} {tree : Tree} {term : Bool}
    (here : cursor.rest = pair.opener ++ (inside ++ (pair.closer ++ behind)))
    (awaited : cursor.atCloser = false)
    (inner : grid (brackets depth) ⟨inside ++ (pair.closer ++ behind), true, pair.bracket.closer⟩ =
      (tree, ⟨pair.closer ++ behind, term, pair.bracket.closer⟩)) :
    atomStep (brackets (depth + 1)) cursor =
      .take (.bracketed pair.bracket.glyph pair.bracket.closerGlyph
        (if tree.isEmptyGrid then none else some tree)) ⟨behind, false, cursor.closer⟩ := by
  have opened := Cursor.open?_of_opener here
  have single : ¬ pair.bracket.Doubles behind := by
    cases pair <;> simp [Bracket.Doubles, Pair.bracket]
  have closed : (⟨pair.closer ++ behind, term, pair.bracket.closer⟩ : Cursor).close? =
      some (pair.bracket.closerGlyph, ⟨behind, term, pair.bracket.closer⟩) := by
    rw [Cursor.close?_of_closer pair.bracket_mem rfl single]
    simp [Cursor.advance, Pair.closer]
  have inward : ((cursor.advance pair.opener.length).awaiting pair.bracket.closer).expecting true =
      ⟨inside ++ (pair.closer ++ behind), true, pair.bracket.closer⟩ := by
    simp [Cursor.advance, Cursor.awaiting, Cursor.expecting, here]
  have read : (brackets (depth + 1)).run cursor = some (.bracketed pair.bracket.glyph
      pair.bracket.closerGlyph (if tree.isEmptyGrid then none else some tree),
        ⟨behind, false, cursor.closer⟩) := by
    simp only [brackets, bracketed?, opened, Option.map_some, inward, inner, closing, closed,
      Option.getD_some]
    rfl
  have more : cursor.atEnd = false := by
    cases pair <;> simp [Cursor.atEnd, here, Pair.opener, Pair.bracket]
  simp [atomStep, more, awaited, atom?, read, Tree.isOperator, needsTerm, Cursor.expecting]

theorem atomStep_group (pair : Pair) {inside : Nesting} {behind : List Char} {term : Bool}
    (here : cursor.rest = pair.opener ++ (inside.spelling ++ (pair.closer ++ behind)))
    (awaited : cursor.atCloser = false)
    (calm : (⟨inside.spelling ++ (pair.closer ++ behind), true, pair.bracket.closer⟩ : Cursor).Calm)
    (found : (atoms (brackets depth)).collect
        ⟨inside.spelling ++ (pair.closer ++ behind), true, pair.bracket.closer⟩ =
      (inside.items, ⟨pair.closer ++ behind, term, pair.bracket.closer⟩)) :
    atomStep (brackets (depth + 1)) cursor =
      .take (.bracketed pair.left pair.right (Nesting.joined? inside.items))
        ⟨behind, false, cursor.closer⟩ := by
  have inner : grid (brackets depth)
      ⟨inside.spelling ++ (pair.closer ++ behind), true, pair.bracket.closer⟩ =
        (inside.tree, ⟨pair.closer ++ behind, term, pair.bracket.closer⟩) := by
    rw [grid_of_atoms calm (.closer pair behind term) found, Nesting.ofCluster?_eq_joined?]
    rfl
  rw [atomStep_bracketed pair here awaited inner, contents_tree, pair.left_eq, pair.right_eq]

theorem startsItem_opener (pair : Pair) (behind : List Char) :
    ∃ c, (pair.opener ++ behind).head? = some c ∧ startsItem c = true := by
  cases pair <;> exact ⟨_, rfl, by decide⟩

theorem startsItem_digits (run : DigitRun) (behind : List Char) :
    ∃ c, (run.chars ++ behind).head? = some c ∧ startsItem c = true := by
  obtain ⟨first, rest, spelled, digit⟩ := run.eq_cons
  exact ⟨first, by rw [spelled]; rfl, by simp [startsItem, digit]⟩

theorem ends_digits_opener (pair : Pair) (behind : List Char) :
    ∀ c ∈ (pair.opener ++ behind).head?, c.isDigit = false ∧ Lexeme.isSeparator c = false := by
  cases pair <;> simp [Pair.opener, Pair.bracket] <;> decide

theorem ends_digits_halted (halted : last.Halted) :
    ∀ c ∈ last.rest.head?, c.isDigit = false ∧ Lexeme.isSeparator c = false := by
  cases halted with
  | ended => simp
  | closer pair behind => cases pair <;> simp [Pair.closer, Pair.bracket] <;> decide

theorem calm_of_startsItem {c : Char} (first : cursor.rest.head? = some c)
    (item : startsItem c = true) : cursor.Calm := by
  intro d here
  rw [first] at here
  cases here
  refine ⟨?_, ?_, ?_⟩ <;> rintro rfl <;> revert item <;> decide

theorem calm_spelling (nesting : Nesting) (calm : last.Calm) (term : Bool) (closer : String) :
    (⟨nesting.spelling ++ last.rest, term, closer⟩ : Cursor).Calm := by
  cases nesting with
  | nothing => exact calm
  | digits run =>
    obtain ⟨c, first, item⟩ := startsItem_digits run last.rest
    exact calm_of_startsItem first item
  | group pair inside behind =>
    obtain ⟨c, first, item⟩ := startsItem_opener pair
      (inside.spelling ++ (pair.closer ++ behind.spelling) ++ last.rest)
    exact calm_of_startsItem (by simpa [Nesting.spelling] using first) item
  | digitsGroup run pair inside behind =>
    obtain ⟨c, first, item⟩ := startsItem_digits run
      ((Nesting.group pair inside behind).spelling ++ last.rest)
    exact calm_of_startsItem (by simpa [Nesting.spelling] using first) item

def ReadAsNested (nesting : Nesting) : Prop :=
  ∀ (depth : Nat) (cursor last : Cursor), last.Halted → nesting.spelling.length ≤ depth →
    cursor.rest = nesting.spelling ++ last.rest → cursor.closer = last.closer →
    last.expectTerm = (cursor.expectTerm && nesting.items.isEmpty) →
    (atoms (brackets depth)).collect cursor = (nesting.items, last)

theorem readAsNested_nothing : ReadAsNested .nothing := by
  intro depth cursor last halted _ here same term
  have whole : cursor = last := by
    cases cursor
    cases last
    simp_all [Nesting.spelling, Nesting.items]
  rw [whole, collect_atoms_halted halted]
  rfl

theorem readAsNested_digits (run : DigitRun) : ReadAsNested (.digits run) := by
  intro depth cursor last halted _ here same term
  obtain ⟨c, first, item⟩ := startsItem_digits run last.rest
  have awaited := halted.not_atCloser same (by rw [here]; exact first) item
  have step : atomStep (brackets depth) cursor = _ :=
    atomStep_digits run here awaited (ends_digits_halted halted)
  have whole : (⟨last.rest, false, cursor.closer⟩ : Cursor) = last := by
    cases last
    simp_all [Nesting.items]
  rw [whole] at step
  rw [(atoms (brackets depth)).collect_take step, collect_atoms_halted halted]
  rfl

theorem readAsNested_group (pair : Pair) {inside behind : Nesting} (inward : ReadAsNested inside)
    (onward : ReadAsNested behind) : ReadAsNested (.group pair inside behind) := by
  intro depth cursor last halted room here same term
  have opener : 0 < pair.opener.length := by cases pair <;> decide
  simp only [Nesting.spelling, List.length_append] at room
  obtain ⟨depth, rfl⟩ : ∃ less, depth = less + 1 := ⟨depth - 1, by omega⟩
  simp only [Nesting.spelling, List.append_assoc] at here
  obtain ⟨c, first, item⟩ := startsItem_opener pair
    (inside.spelling ++ (pair.closer ++ (behind.spelling ++ last.rest)))
  have awaited := halted.not_atCloser same (by rw [here]; exact first) item
  have stop : (⟨pair.closer ++ (behind.spelling ++ last.rest), inside.items.isEmpty,
    pair.bracket.closer⟩ : Cursor).Halted := .closer pair _ _
  have found := inward depth
    ⟨inside.spelling ++ (pair.closer ++ (behind.spelling ++ last.rest)), true, pair.bracket.closer⟩
    _ stop (by omega) rfl rfl (by simp)
  have step : atomStep (brackets (depth + 1)) cursor = _ :=
    atomStep_group pair here awaited (calm_spelling inside stop.calm true _) found
  have rest := onward (depth + 1) ⟨behind.spelling ++ last.rest, false, cursor.closer⟩ last
    halted (by omega) rfl same (by simp_all [Nesting.items])
  rw [(atoms (brackets (depth + 1))).collect_take step, rest]
  rfl

theorem readAsNested_digitsGroup (run : DigitRun) {pair : Pair} {inside behind : Nesting}
    (group : ReadAsNested (.group pair inside behind)) :
    ReadAsNested (.digitsGroup run pair inside behind) := by
  intro depth cursor last halted room here same term
  have grouped : cursor.rest =
      run.chars ++ ((Nesting.group pair inside behind).spelling ++ last.rest) := by
    simpa [Nesting.spelling] using here
  obtain ⟨c, first, item⟩ := startsItem_digits run
    ((Nesting.group pair inside behind).spelling ++ last.rest)
  have awaited := halted.not_atCloser same (by rw [grouped]; exact first) item
  have step : atomStep (brackets depth) cursor = _ := atomStep_digits run grouped awaited (by
    simpa [Nesting.spelling] using ends_digits_opener pair
      (inside.spelling ++ (pair.closer ++ (behind.spelling ++ last.rest))))
  have rest := group depth
    ⟨(Nesting.group pair inside behind).spelling ++ last.rest, false, cursor.closer⟩ last
    halted (by simp only [Nesting.spelling, List.length_append] at room ⊢; omega) rfl same
    (by simp_all [Nesting.items])
  rw [(atoms (brackets depth)).collect_take step, rest]
  rfl

theorem readAsNested (nesting : Nesting) : ReadAsNested nesting := by
  induction nesting with
  | nothing => exact readAsNested_nothing
  | digits run => exact readAsNested_digits run
  | group pair inside behind inward onward => exact readAsNested_group pair inward onward
  | digitsGroup run pair inside behind inward onward =>
    exact readAsNested_digitsGroup run (readAsNested_group pair inward onward)

end Grammar

/-- Balanced brackets around digits are read as they are nested. -/
theorem parse_nesting (nesting : Nesting) :
    parse (String.ofList nesting.spelling) = nesting.tree := by
  have halted : (⟨[], nesting.items.isEmpty, ""⟩ : Cursor).Halted := .ended _
  have found := Grammar.readAsNested nesting nesting.spelling.length
    (Cursor.start nesting.spelling) _ halted (Nat.le_refl _) (by simp [Cursor.start]) rfl
    (by simp [Cursor.start])
  have calm : (Cursor.start nesting.spelling).Calm := by
    simpa [Cursor.start] using Grammar.calm_spelling nesting halted.calm true ""
  have whole := Grammar.grid_of_atoms calm halted found
  rw [Nesting.ofCluster?_eq_joined?] at whole
  simp only [parse, Cursor.grid, Cursor.brackets, String.toList_ofList]
  exact congrArg Prod.fst whole

theorem parse_nesting_groups : parse "7(3|_4_|)||::||" = .cluster [.number "7",
    .bracketed "(" ")" (some (.cluster [.number "3",
      .bracketed "&lfloor;" "&rfloor;" (some (.number "4"))])),
    .bracketed "&par;" "&par;" none] :=
  parse_nesting (.digitsGroup ⟨['7'], by simp, by simp⟩ .round
    (.digitsGroup ⟨['3'], by simp, by simp⟩ .floor (.digits ⟨['4'], by simp, by simp⟩) .nothing)
    (.group .norm .nothing .nothing))

end PlainMath
