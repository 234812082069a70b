import PlainMath.Proofs.Grammar.Operands
import PlainMath.Tree.Equality

/-! Matrices of simple cells. Two or more blanks lead from cell to cell, and semicolons from row to
row. Behind each of them a term is expected again, so a letter is an identifier in every cell, also
one that is an operator behind a term. -/
namespace PlainMath
open PlainMath.Symbol

/-- A number, a letter, or a longer word that is no operator. Within a number there may be single
blanks. -/
inductive MatrixCell where
  | number (numeral : List Char) (spelled : Numeral numeral)
  | letter (c : Char) (letter : isLetter c = true)
  | word (letters : List Char) (long : 2 ≤ letters.length)
      (spelled : ∀ c ∈ letters, isLetter c = true) (plain : operators.word? letters = none)

namespace MatrixCell

def spelling : MatrixCell → List Char
  | .number numeral _ => numeral
  | .letter c _ => [c]
  | .word letters .. => letters

def tree : MatrixCell → Tree
  | .number numeral _ => .number (String.ofList numeral)
  | .letter c _ => Lexeme.wordLeaf [c]
  | .word letters .. => Lexeme.wordLeaf letters

end MatrixCell

/-- Cells from left to right. Each cell but the first comes with the number of blanks in front of it
beyond the two that have to be there. -/
structure MatrixRow where
  first : MatrixCell
  others : List (Nat × MatrixCell)

namespace MatrixRow

def spelling (row : MatrixRow) : List Char :=
  row.first.spelling ++
    row.others.flatMap fun other => List.replicate (other.1 + 2) ' ' ++ other.2.spelling

def trees (row : MatrixRow) : List Tree := row.first.tree :: row.others.map (·.2.tree)

end MatrixRow

structure MatrixSource where
  first : MatrixRow
  others : List MatrixRow

namespace MatrixSource

def spelling (source : MatrixSource) : List Char :=
  source.first.spelling ++ source.others.flatMap fun other => ';' :: other.spelling

def rows (source : MatrixSource) : List (List Tree) :=
  (source.first :: source.others).map (·.trees)

end MatrixSource

namespace Grammar
variable {depth : Nat} {behind : List Char}

theorem collect_atoms_rowEnd (ended : RowEnd behind) :
    (atoms (brackets depth)).collect ⟨behind, false, ""⟩ = ([], ⟨behind, false, ""⟩) := by
  refine (atoms (brackets depth)).collect_stop ?_
  obtain rfl | ⟨further, rfl⟩ | ⟨further, rfl⟩ := ended
  · rfl
  · exact atomStep_blank depth _ false
  · have unread : atom? (brackets depth) ⟨';' :: further, false, ""⟩ = none :=
      atom?_eq_none_iff.mpr
        ⟨brackets_semicolon depth rfl, Lexeme.readers_eq_none (.inr rfl) further⟩
    simp [atoms, atomStep, unread]

theorem collect_row_rowEnd (ended : RowEnd behind) :
    (rowElements (brackets depth)).collect ⟨behind, false, ""⟩ = ([], ⟨behind, false, ""⟩) := by
  have cluster : cluster? (brackets depth) ⟨behind, false, ""⟩ = none := by
    simp [cluster?, collect_atoms_rowEnd ended, Tree.ofCluster?]
  refine (rowElements (brackets depth)).collect_stop ?_
  obtain rfl | ⟨further, rfl⟩ | ⟨further, rfl⟩ := ended
  · rfl
  · have operator : Lexeme.operator? (' ' :: ' ' :: further) = none :=
      Lexeme.readers_eq_none (.inl rfl) _ _ (by simp [Lexeme.readers])
    simp [rowElements, rowStep, Cursor.peekAt, range?, leaf?, operator, cluster]
  · have stop : rowStep (brackets depth) ⟨';' :: further, false, ""⟩ = _ :=
      rowStep_semicolon depth rfl
    exact stop

end Grammar

namespace MatrixCell
open Grammar Lexeme
variable (cell : MatrixCell) {behind : List Char}

theorem operand : Operand cell.spelling := by
  cases cell with
  | number numeral spelled => exact .number spelled
  | letter c alone => exact .letter alone
  | word letters long spelled plain => exact .word long spelled plain

theorem isTerm : cell.tree.IsTerm := by
  cases cell with
  | number numeral => exact .number _
  | letter c => exact .identifier _
  | word letters => exact .identifier _

theorem term?_spelling (ended : RowEnd behind) :
    term? (cell.spelling ++ behind) = some (cell.tree, cell.spelling.length) := by
  have letters : ∀ c ∈ behind.head?, isLetter c = false := by
    obtain rfl | ⟨further, rfl⟩ | ⟨further, rfl⟩ := ended <;> simp [isLetter]
  cases cell with
  | number numeral spelled =>
    -- a blank goes on with a number only in front of a digit
    have digits : numeralTail behind = [] := by
      obtain rfl | ⟨further, rfl⟩ | ⟨further, rfl⟩ := ended <;> rfl
    rw [spelling, term?, number?_numeral spelled digits, Option.some_or, tree]
  | letter c alone =>
    have spelled : ∀ d ∈ [c], isLetter d = true := by simpa using alone
    exact term?_word (List.cons_ne_nil c []) spelled (.inl rfl) letters
  | word word long spelled plain =>
    have nonempty : word ≠ [] := by
      rintro rfl
      cases long
    exact term?_word nonempty spelled (.inr plain) letters

theorem calm (behind : List Char) : (⟨cell.spelling ++ behind, true, ""⟩ : Cursor).Calm := by
  obtain ⟨c, first, starts⟩ := cell.operand.head?
  exact calm_of_starts (by rw [List.head?_append, first]; rfl) (.inl starts)

theorem row_spelling (depth : Nat) (ended : RowEnd behind) :
    row (brackets depth) ⟨cell.spelling ++ behind, true, ""⟩ =
      (some cell.tree, ⟨behind, false, ""⟩) := by
  have atom : atomStep (brackets depth) ⟨cell.spelling ++ behind, true, ""⟩ = _ :=
    cell.operand.atomStep cell.isTerm depth (cell.term?_spelling ended) rfl
  have found := collect_atoms_take atom
  rw [collect_atoms_rowEnd ended] at found
  have element := rowStep_of_atoms (cell.calm behind) found rfl
  rw [row, (rowElements (brackets depth)).collect_take element, collect_row_rowEnd ended]
  rfl

theorem cellStep_spelling (depth : Nat) (ended : RowEnd behind) :
    cellStep (brackets depth) ⟨cell.spelling ++ behind, true, ""⟩ =
      .take cell.tree ⟨behind, false, ""⟩ := by
  obtain ⟨c, first, starts⟩ := cell.operand.head?
  have more : (⟨cell.spelling ++ behind, true, ""⟩ : Cursor).atEnd = false := by
    cases shape : cell.spelling <;> simp_all [Cursor.atEnd]
  simp [cellStep, more, (cell.calm behind).eat?_blanks, cell.row_spelling depth ended]

theorem cellStep_blanks (depth extra : Nat) (behind : List Char) :
    cellStep (brackets depth)
        ⟨List.replicate (extra + 2) ' ' ++ (cell.spelling ++ behind), false, ""⟩ =
      .skip ⟨cell.spelling ++ behind, true, ""⟩ := by
  have dropped : (List.replicate extra ' ' ++ (cell.spelling ++ behind)).dropWhile (· == ' ') =
      cell.spelling ++ behind := by
    have calm := cell.calm behind
    rw [List.dropWhile_append_of_pos (by simp)]
    cases shape : cell.spelling ++ behind with
    | nil => rfl
    | cons c rest =>
      rw [shape] at calm
      simp [(calm c rfl).1]
  have wide : Cursor.eat? ⟨List.replicate (extra + 2) ' ' ++ (cell.spelling ++ behind), false, ""⟩
      "  " = some ⟨List.replicate extra ' ' ++ (cell.spelling ++ behind), false, ""⟩ := by
    simp [Cursor.eat?, Cursor.startsWith, List.replicate_succ, List.isPrefixOf, Cursor.advance]
  simp [cellStep, Cursor.atEnd, wide, dropped]

end MatrixCell

namespace MatrixRow
open Grammar

theorem spelling_cons (first : MatrixCell) (other : Nat × MatrixCell)
    (others : List (Nat × MatrixCell)) :
    spelling ⟨first, other :: others⟩ =
      first.spelling ++ (List.replicate (other.1 + 2) ' ' ++ spelling ⟨other.2, others⟩) := by
  simp [spelling]

def Ends (behind : List Char) : Prop := behind = [] ∨ ∃ further, behind = ';' :: further

theorem collect_cells_ends (depth : Nat) {behind : List Char} (ends : Ends behind) :
    (rowCells (brackets depth)).collect ⟨behind, false, ""⟩ = ([], ⟨behind, false, ""⟩) := by
  obtain rfl | ⟨further, rfl⟩ := ends
  · exact collect_cells_halted (.ended false)
  · have stop : cellStep (brackets depth) ⟨';' :: further, false, ""⟩ = _ :=
      cellStep_semicolon depth rfl
    exact (rowCells (brackets depth)).collect_stop stop

theorem collect_cells_spelling (row : MatrixRow) (depth : Nat) {behind : List Char}
    (ends : Ends behind) :
    (rowCells (brackets depth)).collect ⟨row.spelling ++ behind, true, ""⟩ =
      (row.trees, ⟨behind, false, ""⟩) := by
  obtain ⟨first, others⟩ := row
  induction others generalizing first with
  | nil =>
    have spelled : spelling ⟨first, []⟩ = first.spelling := by simp [spelling]
    have cell : cellStep (brackets depth) ⟨first.spelling ++ behind, true, ""⟩ = _ :=
      first.cellStep_spelling depth (ends.imp_right .inr)
    rw [spelled, (rowCells (brackets depth)).collect_take cell, collect_cells_ends depth ends]
    rfl
  | cons other others ih =>
    have cell : cellStep (brackets depth) ⟨first.spelling ++ (List.replicate (other.1 + 2) ' ' ++
        (spelling ⟨other.2, others⟩ ++ behind)), true, ""⟩ = _ :=
      first.cellStep_spelling depth (.inr (.inl ⟨_, rfl⟩))
    have blanks : (rowCells (brackets depth)).step ⟨List.replicate (other.1 + 2) ' ' ++
        (spelling ⟨other.2, others⟩ ++ behind), false, ""⟩ =
          .skip ⟨spelling ⟨other.2, others⟩ ++ behind, true, ""⟩ := by
      rw [spelling, List.append_assoc]
      exact other.2.cellStep_blanks depth other.1 _
    rw [spelling_cons, List.append_assoc, List.append_assoc,
      (rowCells (brackets depth)).collect_take cell,
      (rowCells (brackets depth)).collect_skip blanks, ih]
    rfl

theorem gridStep_spelling (row : MatrixRow) (depth : Nat) {behind : List Char}
    (ends : Ends behind) :
    gridStep (brackets depth) ⟨row.spelling ++ behind, true, ""⟩ =
      .take row.trees ⟨behind, false, ""⟩ := by
  have calm : (⟨row.spelling ++ behind, true, ""⟩ : Cursor).Calm := by
    rw [spelling, List.append_assoc]
    exact row.first.calm _
  have more : (⟨row.spelling ++ behind, true, ""⟩ : Cursor).atEnd = false := by
    obtain ⟨c, first, _⟩ := row.first.operand.head?
    cases shape : row.first.spelling <;> simp_all [Cursor.atEnd, spelling]
  have cells : gridRow (brackets depth) ⟨row.spelling ++ behind, true, ""⟩ =
      (some row.trees, ⟨behind, false, ""⟩) := by
    simp [gridRow, row.collect_cells_spelling depth ends, trees]
  simp [gridStep, more, calm.eat?_semicolon, cells]

end MatrixRow

namespace MatrixSource
open Grammar

theorem collect_rows_spelling (source : MatrixSource) (depth : Nat) :
    (gridRows (brackets depth)).collect (Cursor.start source.spelling) =
      (source.rows, ⟨[], false, ""⟩) := by
  obtain ⟨first, others⟩ := source
  rw [Cursor.start]
  induction others generalizing first with
  | nil =>
    have row : gridStep (brackets depth) ⟨first.spelling ++ [], true, ""⟩ = _ :=
      first.gridStep_spelling depth (.inl rfl)
    rw [spelling, List.flatMap_nil, (gridRows (brackets depth)).collect_take row,
      collect_rows_halted (.ended false)]
    rfl
  | cons other others ih =>
    have whole : spelling ⟨first, other :: others⟩ =
        first.spelling ++ ';' :: spelling ⟨other, others⟩ := by simp [spelling]
    have row : gridStep (brackets depth)
        ⟨first.spelling ++ ';' :: spelling ⟨other, others⟩, true, ""⟩ = _ :=
      first.gridStep_spelling depth (.inr ⟨_, rfl⟩)
    have semicolon : (gridRows (brackets depth)).step ⟨';' :: spelling ⟨other, others⟩, false, ""⟩ =
        .skip ⟨spelling ⟨other, others⟩, true, ""⟩ := by
      simp [gridRows, gridStep, Cursor.atEnd, Cursor.eat?, Cursor.startsWith, List.isPrefixOf,
        Cursor.advance, Cursor.expecting]
    rw [whole, (gridRows (brackets depth)).collect_take row,
      (gridRows (brackets depth)).collect_skip semicolon, ih]
    rfl

end MatrixSource

/-- A matrix of more than one cell is read as a grid with its rows and cells. -/
theorem parse_matrix (source : MatrixSource) (several : ∀ only, source.rows ≠ [[only]]) :
    parse (String.ofList source.spelling) = .grid source.rows := by
  have shape : Tree.ofRows source.rows = .grid source.rows := by
    unfold Tree.ofRows
    split
    · exact absurd ‹_› (several _)
    · rfl
  rw [parse, Cursor.grid, Grammar.grid, String.toList_ofList, Cursor.brackets,
    source.collect_rows_spelling, shape]

theorem parse_matrix_two_rows : parse "1,5   v;o  alpha" =
    .grid [[.number "1,5", .identifier "v"], [.identifier "o", .identifier "&alpha;"]] := by
  let top : MatrixRow :=
    ⟨.number ['1', ',', '5'] (.separated rfl rfl (.last rfl)), [(1, .letter 'v' rfl)]⟩
  let bottom : MatrixRow :=
    ⟨.letter 'o' rfl, [(0, .word "alpha".toList (by decide) (by simp [isLetter]) (by decide +kernel))]⟩
  have rows : MatrixSource.rows ⟨top, [bottom]⟩ =
      [[.number "1,5", .identifier "v"], [.identifier "o", .identifier "&alpha;"]] := by
    decide +kernel
  rw [← rows]
  exact parse_matrix ⟨top, [bottom]⟩ (by simp [rows])

end PlainMath
