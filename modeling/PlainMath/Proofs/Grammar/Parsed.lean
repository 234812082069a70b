import PlainMath.Proofs.Grammar.Steps
import PlainMath.Proofs.Tree.Built

/-! What every tree that is read has in common: a property holds of it as soon as
it holds of the leaves and passes on through the ways in which the grammar puts
trees together. -/
namespace PlainMath.Grammar

/-- The property holds of the leaves and of whatever the grammar makes of trees that have it.
Clusters, rows and grids come in the sizes in which the grammar makes them. The elements of a
cluster are neither rows nor clusters, and not all of them are invisible products. -/
structure Builds (Q : Tree → Prop) : Prop where
  leaf : ∀ reader ∈ Lexeme.readers, ∀ {input leaf length},
    reader input = some (leaf, length) → Q leaf
  cluster : ∀ {elements : List Tree}, 2 ≤ elements.length →
    (∃ element ∈ elements, element.isOperator Glyph.invisibleProduct = false) →
    (∀ element ∈ elements, element.elements? = none) →
    (∀ element ∈ elements, Q element) → Q (.cluster elements)
  row : ∀ {elements : List Tree}, 2 ≤ elements.length →
    (∀ element ∈ elements, Q element) → Q (.row elements)
  grid : ∀ {rows : List (List Tree)}, rows ≠ [] → (∀ only, rows ≠ [[only]]) →
    (∀ cells ∈ rows, cells ≠ [] ∧ ∀ cell ∈ cells, Q cell) → Q (.grid rows)
  bracketed : ∀ {bracket right contents}, bracket ∈ Bracket.all →
    (right = "" ∨ ∃ closer ∈ Bracket.closers, right = closer.2) →
    (∀ inner ∈ contents, Q inner ∧ inner.isEmptyGrid = false) →
    Q (.bracketed bracket.glyph right contents)

theorem operator?_invisibleProduct {input : List Char} {length : Nat}
    (found : Lexeme.operator? input = some (.operator Glyph.invisibleProduct, length)) :
    ∃ rest, input = '.' :: rest ∧ length = 1 ∧ rest.head? ≠ some '.' := by
  have words : ∀ entry ∈ Symbol.operators.words, entry.2 ≠ Glyph.invisibleProduct := by
    decide +kernel
  have signs : ∀ sign ∈ Symbol.operators.signs, sign.2 = Glyph.invisibleProduct →
      sign.1 = ['.'] := by decide +kernel
  have dots : (['.', '.'], Glyph.range) ∈ Symbol.operators.signs := by decide +kernel
  dsimp only [Lexeme.operator?] at found
  split at found
  · obtain ⟨⟨glyph, size⟩, longest, same⟩ := Option.map_eq_some_iff.mp found
    cases same
    obtain ⟨sign, member, glyph, size, leads⟩ := Symbol.Table.longestSign?_mem longest
    rw [signs sign member glyph] at size leads
    obtain ⟨rest, rfl⟩ := leads
    refine ⟨rest, rfl, size.symm, fun second => ?_⟩
    cases rest with
    | nil => cases second
    | cons c rest =>
      cases second
      have := Symbol.Table.length_le_of_longestSign? longest dots ⟨rest, rfl⟩
      simp only [List.length_cons, List.length_nil] at this size
      omega
  · obtain ⟨glyph, word, same⟩ := Option.map_eq_some_iff.mp found
    cases same
    exact absurd rfl (words _ (Symbol.Table.word?_mem word))

theorem leaf_invisibleProduct {reader : List Char → Option (Tree × Nat)}
    (listed : reader ∈ Lexeme.readers) {input : List Char} {length : Nat}
    (found : reader input = some (.operator Glyph.invisibleProduct, length)) :
    ∃ rest, input = '.' :: rest ∧ length = 1 ∧ rest.head? ≠ some '.' := by
  rcases Lexeme.operator?_of_reader listed found with operator | ⟨c, escaped⟩
  · exact operator?_invisibleProduct operator
  · exact absurd escaped (Lexeme.escape_ne (by decide) (by decide) c)

variable {depth : Nat}

theorem collect_atoms_cons {cursor : Cursor} {atom : Tree} {more : List Tree}
    (found : ((atoms (brackets depth)).collect cursor).1 = atom :: more) :
    ∃ after, atomStep (brackets depth) cursor = .take atom after ∧
      ((atoms (brackets depth)).collect after).1 = more := by
  cases step : atomStep (brackets depth) cursor with
  | take value after =>
    rw [(atoms (brackets depth)).collect_take step] at found
    cases found
    exact ⟨after, rfl, rfl⟩
  | skip after => exact absurd step atomStep_not_skip
  | stop last =>
    rw [(atoms (brackets depth)).collect_stop step] at found
    cases found

theorem atomStep_invisibleProduct {cursor after : Cursor}
    (step : atomStep (brackets depth) cursor = .take (.operator Glyph.invisibleProduct) after) :
    cursor.rest = '.' :: after.rest ∧ after.rest.head? ≠ some '.' := by
  obtain ⟨next, found, _, rfl⟩ := atomStep_take step
  rcases atom?_eq_some found with bracket | ⟨reader, listed, leaf⟩
  · cases isOperand_of_brackets bracket
  · obtain ⟨length, read, rfl⟩ := leaf?_eq_some leaf
    obtain ⟨rest, spelled, rfl, second⟩ := leaf_invisibleProduct listed read
    have behind : (cursor.advance 1).rest = rest := by rw [Cursor.rest_advance, spelled]; rfl
    rw [Cursor.rest_expecting, behind]
    exact ⟨spelled, second⟩

theorem collect_atoms_visible (depth : Nat) (cursor : Cursor)
    (several : 2 ≤ ((atoms (brackets depth)).collect cursor).1.length) :
    ∃ atom ∈ ((atoms (brackets depth)).collect cursor).1,
      atom.isOperator Glyph.invisibleProduct = false := by
  match found : ((atoms (brackets depth)).collect cursor).1 with
  | [] => simp [found] at several
  | [only] => simp [found] at several
  | first :: second :: more =>
    by_cases visible : first.isOperator Glyph.invisibleProduct = false
    · exact ⟨first, by simp, visible⟩
    · refine ⟨second, by simp, ?_⟩
      obtain ⟨next, step, rest⟩ := collect_atoms_cons found
      obtain ⟨last, step', _⟩ := collect_atoms_cons rest
      have hidden : first = .operator Glyph.invisibleProduct :=
        Tree.eq_operator_of_isOperator (by simpa using visible)
      rw [hidden] at step
      obtain ⟨_, single⟩ := atomStep_invisibleProduct step
      by_cases visible' : second.isOperator Glyph.invisibleProduct = false
      · exact visible'
      · have hidden' : second = .operator Glyph.invisibleProduct :=
          Tree.eq_operator_of_isOperator (by simpa using visible')
        rw [hidden'] at step'
        obtain ⟨dot, _⟩ := atomStep_invisibleProduct step'
        rw [dot] at single
        exact absurd rfl single

variable {Q : Tree → Prop}

def Reader.Gives (reader : Reader) (Q : Tree → Prop) : Prop :=
  ∀ {cursor tree after}, reader.run cursor = some (tree, after) → Q tree

theorem atom?_builds (builds : Builds Q) (gives : (brackets depth).Gives Q) {cursor after : Cursor}
    {tree : Tree} (found : atom? (brackets depth) cursor = some (tree, after)) : Q tree := by
  rcases atom?_eq_some found with bracket | ⟨reader, listed, leaf⟩
  · exact gives bracket
  · obtain ⟨length, read, _⟩ := leaf?_eq_some leaf
    exact builds.leaf reader listed read

theorem elements?_of_atom? {cursor after : Cursor} {tree : Tree}
    (found : atom? (brackets depth) cursor = some (tree, after)) : tree.elements? = none := by
  rcases atom?_eq_some found with bracket | ⟨reader, listed, leaf⟩
  · cases depth with
    | zero => cases bracket
    | succ depth =>
      obtain ⟨opener, inside, _, rfl, _⟩ := bracketed?_eq_some bracket
      rfl
  · obtain ⟨length, read, _⟩ := leaf?_eq_some leaf
    obtain ⟨text, own, _⟩ := Lexeme.leafText?_of_reader listed read
    cases tree with
    | row _ | cluster _ => cases own
    | _ => rfl

theorem cluster?_builds (builds : Builds Q) (gives : (brackets depth).Gives Q)
    {cursor after : Cursor} {tree : Tree}
    (found : cluster? (brackets depth) cursor = some (tree, after)) : Q tree := by
  have all : ∀ atom ∈ ((atoms (brackets depth)).collect cursor).1,
      atom.elements? = none ∧ Q atom := by
    refine Repetition.forall_mem_collect ?_ cursor
    intro cursor atom after step
    obtain ⟨next, read, _⟩ := atomStep_take step
    exact ⟨elements?_of_atom? read, atom?_builds builds gives read⟩
  have visible := collect_atoms_visible depth cursor
  obtain ⟨whole, _⟩ := cluster?_eq_some found
  rcases Tree.ofCluster?_eq_some whole with single | ⟨several, rfl⟩
  · exact (all tree (by simp [single])).2
  · exact builds.cluster several (visible several) (fun atom member => (all atom member).1)
      fun atom member => (all atom member).2

theorem row_builds (builds : Builds Q) (gives : (brackets depth).Gives Q)
    {cursor : Cursor} {tree : Tree} (found : (row (brackets depth) cursor).1 = some tree) : Q tree := by
  have all : ∀ element ∈ ((rowElements (brackets depth)).collect cursor).1, Q element := by
    refine Repetition.forall_mem_collect ?_ cursor
    intro cursor element after step
    rcases rowStep_take step with ⟨next, dots, rfl, _⟩ | cluster
    · obtain ⟨length, read, _⟩ := leaf?_eq_some (range?_eq_some dots)
      exact builds.leaf Lexeme.operator? (by simp [Lexeme.readers]) read
    · exact cluster?_builds builds gives cluster
  rcases Tree.ofRow?_eq_some found with single | ⟨several, rfl⟩
  · exact all tree (by simp [single])
  · exact builds.row several all

theorem gridRow_builds (builds : Builds Q) (gives : (brackets depth).Gives Q) {cursor : Cursor}
    {cells : List Tree} (found : (gridRow (brackets depth) cursor).1 = some cells) :
    cells ≠ [] ∧ ∀ cell ∈ cells, Q cell := by
  obtain ⟨nonempty, rfl⟩ := gridRow_eq_some found
  refine ⟨nonempty, Repetition.forall_mem_collect ?_ cursor⟩
  intro cursor cell after step
  exact row_builds builds gives (cellStep_take step).1

theorem grid_builds (builds : Builds Q) (gives : (brackets depth).Gives Q) (cursor : Cursor) :
    (grid (brackets depth) cursor).1 = .emptyGrid ∨ Q (grid (brackets depth) cursor).1 := by
  have all : ∀ cells ∈ ((gridRows (brackets depth)).collect cursor).1,
      cells ≠ [] ∧ ∀ cell ∈ cells, Q cell := by
    refine Repetition.forall_mem_collect ?_ cursor
    intro cursor cells after step
    exact gridRow_builds builds gives (gridStep_take step).1
  simp only [grid]
  generalize ((gridRows (brackets depth)).collect cursor).1 = rows at all
  unfold Tree.ofRows
  split
  · rename_i only
    exact .inr ((all [only] (by simp)).2 only (by simp))
  · rename_i single
    cases rows with
    | nil => exact .inl rfl
    | cons cells rows => exact .inr (builds.grid (by simp) single all)

theorem closing_glyph (cursor : Cursor) :
    (closing cursor).1 = "" ∨ ∃ closer ∈ Bracket.closers, (closing cursor).1 = closer.2 := by
  unfold closing
  cases closed : cursor.close? with
  | none => exact .inl rfl
  | some found =>
    obtain ⟨closer, listed, eaten⟩ := List.exists_of_findSome?_eq_some closed
    obtain ⟨after, _, rfl⟩ := Option.map_eq_some_iff.mp eaten
    exact .inr ⟨closer, listed, rfl⟩

theorem open?_mem {cursor after : Cursor} {bracket : Bracket}
    (opened : cursor.open? = some (bracket, after)) : bracket ∈ Bracket.all := by
  obtain ⟨candidate, listed, found⟩ := List.exists_of_findSome?_eq_some opened
  split at found
  · obtain ⟨_, _, same⟩ := Option.map_eq_some_iff.mp found
    cases same
    exact listed
  · cases found

theorem bracketed?_builds (builds : Builds Q) (gives : (brackets depth).Gives Q) {cursor after : Cursor}
    {tree : Tree} (found : bracketed? (brackets depth) cursor = some (tree, after)) : Q tree := by
  obtain ⟨bracket, inside, opened, rfl, _⟩ := bracketed?_eq_some found
  refine builds.bracketed (open?_mem opened) (closing_glyph _) ?_
  intro inner member
  split at member
  · cases member
  · rename_i filled
    cases member
    refine ⟨?_, by simpa using filled⟩
    rcases grid_builds builds gives ((inside.awaiting bracket.closer).expecting true) with
      empty | whole
    · rw [empty] at filled
      exact absurd rfl filled
    · exact whole

theorem brackets_gives (builds : Builds Q) (depth : Nat) : (brackets depth).Gives Q := by
  induction depth with
  | zero =>
    intro cursor tree after found
    cases found
  | succ depth ih =>
    intro cursor tree after found
    exact bracketed?_builds builds ih found

end PlainMath.Grammar

namespace PlainMath

theorem parse_builds {Q : Tree → Prop} (builds : Grammar.Builds Q) (source : String) :
    parse source = .emptyGrid ∨ Q (parse source) :=
  Grammar.grid_builds builds (Grammar.brackets_gives builds _) _

end PlainMath
