import PlainMath.Cursor.Bracket
import PlainMath.Cursor.Repetition
import PlainMath.Lexeme

/-! The grammar of the notation, outermost first: a grid has rows that end at
semicolons, a grid row has cells that two or more blanks separate, the row in a
cell has clusters and range dots with single blanks between them, and a cluster
has atoms without blanks. An atom is a leaf or a bracket around a grid again.
Rules for rows come back without a result when they found nothing, but may have
stepped over blanks by then, so they always give the cursor back. -/
namespace PlainMath.Grammar

/-- Reads one tree or nothing; a tree takes at least one character. -/
structure Reader where
  run : Cursor → Option (Tree × Cursor)
  shorter : ∀ {cursor tree after}, run cursor = some (tree, after) →
    after.rest.length < cursor.rest.length

def leaf? (reader : List Char → Option (Tree × Nat)) (cursor : Cursor) :
    Option (Tree × Cursor) :=
  (reader cursor.rest).map fun found => (found.1, cursor.advance found.2)

/-- Where a term is expected a letter is a variable before it is an operator
word, elsewhere the other way round. -/
def word? (cursor : Cursor) : Option (Tree × Cursor) :=
  if cursor.expectTerm then
    (leaf? Lexeme.identifier? cursor).or <|
      (leaf? Lexeme.operator? cursor).or (leaf? Lexeme.unknown? cursor)
  else
    (leaf? Lexeme.operator? cursor).or <|
      (leaf? Lexeme.identifier? cursor).or (leaf? Lexeme.unknown? cursor)

def atom? (brackets : Reader) (cursor : Cursor) : Option (Tree × Cursor) :=
  (brackets.run cursor).or <|
    (leaf? Lexeme.number? cursor).or <| (leaf? Lexeme.text? cursor).or (word? cursor)

/-- Only an operator that is not written behind its operand leaves a term to be expected. -/
def needsTerm : Tree → Bool
  | .operator symbol => !Glyph.isTrailing symbol
  | _ => false

def range? (cursor : Cursor) : Option Cursor :=
  match leaf? Lexeme.operator? cursor with
  | some (tree, after) => if tree.isOperator Glyph.range then some after else none
  | none => none

theorem leaf?_shorter {reader : List Char → Option (Tree × Nat)}
    (bounded : Lexeme.Bounded reader) {cursor after : Cursor} {tree : Tree}
    (found : leaf? reader cursor = some (tree, after)) :
    after.rest.length < cursor.rest.length := by
  obtain ⟨⟨leaf, length⟩, inner, same⟩ := Option.map_eq_some_iff.mp found
  cases same
  have bound := bounded inner
  refine Cursor.advance_shorter bound.1 fun ended => ?_
  simp only [ended, List.length_nil] at bound
  omega

theorem word?_shorter {cursor after : Cursor} {tree : Tree}
    (found : word? cursor = some (tree, after)) :
    after.rest.length < cursor.rest.length := by
  unfold word? at found
  split at found <;> simp only [Option.or_eq_some_iff] at found
  · rcases found with found | ⟨_, found | ⟨_, found⟩⟩
    · exact leaf?_shorter Lexeme.identifier?_bounded found
    · exact leaf?_shorter Lexeme.operator?_bounded found
    · exact leaf?_shorter Lexeme.unknown?_bounded found
  · rcases found with found | ⟨_, found | ⟨_, found⟩⟩
    · exact leaf?_shorter Lexeme.operator?_bounded found
    · exact leaf?_shorter Lexeme.identifier?_bounded found
    · exact leaf?_shorter Lexeme.unknown?_bounded found

theorem atom?_shorter {brackets : Reader} {cursor after : Cursor} {tree : Tree}
    (found : atom? brackets cursor = some (tree, after)) :
    after.rest.length < cursor.rest.length := by
  simp only [atom?, Option.or_eq_some_iff] at found
  rcases found with found | ⟨_, found | ⟨_, found | ⟨_, found⟩⟩⟩
  · exact brackets.shorter found
  · exact leaf?_shorter Lexeme.number?_bounded found
  · exact leaf?_shorter Lexeme.text?_bounded found
  · exact word?_shorter found

theorem range?_shorter {cursor after : Cursor} (found : range? cursor = some after) :
    after.rest.length < cursor.rest.length := by
  unfold range? at found
  split at found
  · rename_i tree next operator
    split at found
    · cases found
      exact leaf?_shorter Lexeme.operator?_bounded operator
    · cases found
  · cases found

/-- The next atom, unless a blank, a semicolon, the awaited closer or the dots
of a range stand at the cursor. -/
def atomStep (brackets : Reader) (cursor : Cursor) : Step Tree :=
  if cursor.atEnd || cursor.atCloser then
    .stop cursor
  else match atom? brackets cursor with
    | none => .stop cursor
    | some (tree, after) =>
      if tree.isOperator Glyph.range then
        .stop cursor
      else
        .take tree (after.expecting (needsTerm tree))

def atoms (brackets : Reader) : Repetition Tree where
  step := atomStep brackets
  within cursor := by
    unfold atomStep
    split
    · exact Nat.le_refl _
    · split
      · exact Nat.le_refl _
      · rename_i found
        split
        · exact Nat.le_refl _
        · simpa only [Step.Within, Cursor.rest_expecting] using atom?_shorter found

def cluster? (brackets : Reader) (cursor : Cursor) : Option (Tree × Cursor) :=
  let found := (atoms brackets).collect cursor
  (Tree.ofCluster? found.1).map (·, found.2)

theorem cluster?_shorter {brackets : Reader} {cursor after : Cursor} {tree : Tree}
    (found : cluster? brackets cursor = some (tree, after)) :
    after.rest.length < cursor.rest.length := by
  obtain ⟨_, inner, same⟩ := Option.map_eq_some_iff.mp found
  cases same
  refine ((atoms brackets).collect_within cursor).2 fun empty => ?_
  rw [empty] at inner
  cases inner

/-- A single blank is stepped over, the dots of a range are an element of the
row, and everything else comes in clusters. -/
def rowStep (brackets : Reader) (cursor : Cursor) : Step Tree :=
  if cursor.atEnd then
    .stop cursor
  else if cursor.peek = some ' ' ∧ cursor.peekAt 1 ≠ some ' ' then
    .skip (cursor.advance 1)
  else match range? cursor with
    | some after => .take (.operator Glyph.range) (after.expecting true)
    | none =>
      match cluster? brackets cursor with
      | some (tree, after) => .take tree after
      | none => .stop cursor

def rowElements (brackets : Reader) : Repetition Tree where
  step := rowStep brackets
  within cursor := by
    unfold rowStep
    split
    · exact Nat.le_refl _
    · rename_i more
      split
      · refine Cursor.advance_shorter Nat.one_pos fun ended => more ?_
        simp [Cursor.atEnd, ended]
      · split
        · rename_i found
          simpa only [Step.Within, Cursor.rest_expecting] using range?_shorter found
        · split
          · rename_i found
            exact cluster?_shorter found
          · exact Nat.le_refl _

def row (brackets : Reader) (cursor : Cursor) : Option Tree × Cursor :=
  let found := (rowElements brackets).collect cursor
  (Tree.ofRow? found.1, found.2)

theorem row_le (brackets : Reader) (cursor : Cursor) :
    (row brackets cursor).2.rest.length ≤ cursor.rest.length :=
  ((rowElements brackets).collect_within cursor).1

theorem row_shorter {brackets : Reader} {cursor : Cursor} {tree : Tree}
    (found : (row brackets cursor).1 = some tree) :
    (row brackets cursor).2.rest.length < cursor.rest.length := by
  refine ((rowElements brackets).collect_within cursor).2 fun empty => ?_
  simp [row, empty, Tree.ofRow?] at found

/-- Two or more blanks lead to the next cell, where a term is expected. -/
def cellStep (brackets : Reader) (cursor : Cursor) : Step Tree :=
  if cursor.atEnd then
    .stop cursor
  else match cursor.eat? "  " with
    | some after =>
      .skip { after with rest := after.rest.dropWhile (· == ' '), expectTerm := true }
    | none =>
      match (row brackets cursor).1 with
      | some tree => .take tree (row brackets cursor).2
      | none => .stop (row brackets cursor).2

def rowCells (brackets : Reader) : Repetition Tree where
  step := cellStep brackets
  within cursor := by
    unfold cellStep
    split
    · exact Nat.le_refl _
    · split
      · rename_i after eaten
        have := Cursor.eat?_shorter eaten
        have := (List.dropWhile_suffix (l := after.rest) (· == ' ')).length_le
        simp only [Step.Within]
        omega
      · split
        · rename_i found
          exact row_shorter found
        · exact row_le brackets cursor

/-- The cells of one row of a grid; a row without cells is no row. -/
def gridRow (brackets : Reader) (cursor : Cursor) : Option (List Tree) × Cursor :=
  let found := (rowCells brackets).collect cursor
  (if found.1.isEmpty then none else some found.1, found.2)

theorem gridRow_le (brackets : Reader) (cursor : Cursor) :
    (gridRow brackets cursor).2.rest.length ≤ cursor.rest.length :=
  ((rowCells brackets).collect_within cursor).1

theorem gridRow_shorter {brackets : Reader} {cursor : Cursor} {cells : List Tree}
    (found : (gridRow brackets cursor).1 = some cells) :
    (gridRow brackets cursor).2.rest.length < cursor.rest.length := by
  refine ((rowCells brackets).collect_within cursor).2 fun empty => ?_
  simp [gridRow, empty] at found

def gridStep (brackets : Reader) (cursor : Cursor) : Step (List Tree) :=
  if cursor.atEnd then
    .stop cursor
  else match cursor.eat? ";" with
    | some after => .skip (after.expecting true)
    | none =>
      match (gridRow brackets cursor).1 with
      | some cells => .take cells (gridRow brackets cursor).2
      | none => .stop (gridRow brackets cursor).2

def gridRows (brackets : Reader) : Repetition (List Tree) where
  step := gridStep brackets
  within cursor := by
    unfold gridStep
    split
    · exact Nat.le_refl _
    · split
      · rename_i eaten
        simpa only [Step.Within, Cursor.rest_expecting] using Cursor.eat?_shorter eaten
      · split
        · rename_i found
          exact gridRow_shorter found
        · exact gridRow_le brackets cursor

/-- A grid is always found: without any row it is the empty one. -/
def grid (brackets : Reader) (cursor : Cursor) : Tree × Cursor :=
  let found := (gridRows brackets).collect cursor
  (Tree.ofRows found.1, found.2)

theorem grid_le (brackets : Reader) (cursor : Cursor) :
    (grid brackets cursor).2.rest.length ≤ cursor.rest.length :=
  ((gridRows brackets).collect_within cursor).1

/-- The right delimiter at the cursor, or none at all. -/
def closing (cursor : Cursor) : String × Cursor := cursor.close?.getD ("", cursor)

theorem closing_le (cursor : Cursor) :
    (closing cursor).2.rest.length ≤ cursor.rest.length := by
  unfold closing
  cases found : cursor.close? with
  | none => simp
  | some closed => exact Nat.le_of_lt (Cursor.close?_shorter found)

/-- A grid between delimiters. Whatever right delimiter stands at the end of the
grid closes the bracket; afterwards the outer closer is awaited again. -/
def bracketed? (brackets : Reader) (cursor : Cursor) : Option (Tree × Cursor) :=
  cursor.open?.map fun opened =>
    let inner := grid brackets ((opened.2.awaiting opened.1.closer).expecting true)
    let closed := closing inner.2
    (.bracketed opened.1.glyph closed.1 (if inner.1.isEmptyGrid then none else some inner.1),
      (closed.2.awaiting cursor.closer).expecting false)

theorem bracketed?_shorter {brackets : Reader} {cursor after : Cursor} {tree : Tree}
    (found : bracketed? brackets cursor = some (tree, after)) :
    after.rest.length < cursor.rest.length := by
  obtain ⟨⟨bracket, inside⟩, opened, same⟩ := Option.map_eq_some_iff.mp found
  cases same
  have first := Cursor.open?_shorter opened
  have second := grid_le brackets ((inside.awaiting bracket.closer).expecting true)
  have third := closing_le
    (grid brackets ((inside.awaiting bracket.closer).expecting true)).2
  simp only [Cursor.rest_expecting, Cursor.rest_awaiting] at second ⊢
  omega

/-- Brackets nested at most so many levels deep. -/
def brackets : Nat → Reader
  | 0 => { run := fun _ => none, shorter := by simp }
  | depth + 1 => { run := bracketed? (brackets depth), shorter := bracketed?_shorter }

end PlainMath.Grammar

namespace PlainMath.Cursor

/-- Brackets to any depth that the input can hold: each opener takes a character. -/
def brackets (cursor : Cursor) : Grammar.Reader := Grammar.brackets cursor.rest.length

def grid (cursor : Cursor) : Tree × Cursor := Grammar.grid cursor.brackets cursor

def gridRow (cursor : Cursor) : Option (List Tree) × Cursor :=
  Grammar.gridRow cursor.brackets cursor

def row (cursor : Cursor) : Option Tree × Cursor := Grammar.row cursor.brackets cursor

def cluster? (cursor : Cursor) : Option (Tree × Cursor) :=
  Grammar.cluster? cursor.brackets cursor

def bracketed? (cursor : Cursor) : Option (Tree × Cursor) := cursor.brackets.run cursor

end PlainMath.Cursor

namespace PlainMath

def parse (source : String) : Tree := (Cursor.start source.toList).grid.1

end PlainMath
