import PlainMath.Grammar
import PlainMath.Proofs.Grammar.Leaves

/-! What one step of each rule of the grammar can do: which of the readings at the
cursor it follows, what it gives, and where it leaves the cursor. Statements about
whole rules come from these by induction over the repetition. -/
namespace PlainMath

namespace Repetition
variable {α : Type} {repetition : Repetition α}

theorem forall_mem_collect {P : α → Prop}
    (taken : ∀ {cursor value after}, repetition.step cursor = .take value after → P value)
    (cursor : Cursor) : ∀ value ∈ (repetition.collect cursor).1, P value := by
  refine repetition.collect_induct (P := fun _ found => ∀ value ∈ found.1, P value) ?_ ?_ ?_ cursor
  · intro cursor after value more step ih
    exact List.forall_mem_cons.mpr ⟨taken step, ih⟩
  · intro cursor after more _ ih
    exact ih
  · intro cursor last _ value member
    cases member

end Repetition

theorem Tree.eq_operator_of_isOperator {glyph : String} {tree : Tree}
    (found : tree.isOperator glyph = true) : tree = .operator glyph := by
  unfold Tree.isOperator at found
  split at found
  · rw [eq_of_beq found]
  · cases found

namespace Grammar
variable {brackets : Reader} {cursor after : Cursor} {tree : Tree}

theorem leaf?_eq_some {reader : List Char → Option (Tree × Nat)}
    (found : leaf? reader cursor = some (tree, after)) :
    ∃ length, reader cursor.rest = some (tree, length) ∧ after = cursor.advance length := by
  obtain ⟨⟨leaf, length⟩, read, same⟩ := Option.map_eq_some_iff.mp found
  cases same
  exact ⟨length, read, rfl⟩

theorem atom?_eq_some (found : atom? brackets cursor = some (tree, after)) :
    brackets.run cursor = some (tree, after) ∨
      ∃ reader ∈ Lexeme.readers, leaf? reader cursor = some (tree, after) := by
  simp only [atom?, Option.or_eq_some_iff] at found
  rcases found with bracket | ⟨_, number | ⟨_, text | ⟨_, word⟩⟩⟩
  · exact .inl bracket
  · exact .inr ⟨_, by simp [Lexeme.readers], number⟩
  · exact .inr ⟨_, by simp [Lexeme.readers], text⟩
  · unfold word? at word
    split at word <;> simp only [Option.or_eq_some_iff] at word
    all_goals
      rcases word with first | ⟨_, second | ⟨_, third⟩⟩
      · exact .inr ⟨_, by simp [Lexeme.readers], first⟩
      · exact .inr ⟨_, by simp [Lexeme.readers], second⟩
      · exact .inr ⟨_, by simp [Lexeme.readers], third⟩

theorem atom?_eq_none_iff : atom? brackets cursor = none ↔
    brackets.run cursor = none ∧ ∀ reader ∈ Lexeme.readers, reader cursor.rest = none := by
  simp only [atom?, Option.or_eq_none_iff, Lexeme.readers, List.forall_mem_cons, leaf?,
    Option.map_eq_none_iff]
  unfold word?
  split <;> simp only [Option.or_eq_none_iff, leaf?, Option.map_eq_none_iff] <;> grind

theorem range?_eq_some (found : range? cursor = some after) :
    leaf? Lexeme.operator? cursor = some (.operator Glyph.range, after) := by
  unfold range? at found
  split at found
  · rename_i tree next read
    split at found
    · rename_i dots
      cases found
      rw [Tree.eq_operator_of_isOperator dots] at read
      exact read
    · cases found
  · cases found

theorem atomStep_take (step : atomStep brackets cursor = .take tree after) :
    ∃ next, atom? brackets cursor = some (tree, next) ∧ tree.isOperator Glyph.range = false ∧
      after = next.expecting (needsTerm tree) := by
  unfold atomStep at step
  split at step
  · cases step
  · split at step
    · cases step
    · rename_i found next read
      split at step
      · cases step
      · rename_i dots
        cases step
        exact ⟨next, read, by simpa using dots, rfl⟩

theorem atomStep_not_skip : atomStep brackets cursor ≠ .skip after := by
  unfold atomStep
  split
  · simp
  · split
    · simp
    · split <;> simp

theorem atomStep_stop (step : atomStep brackets cursor = .stop after) :
    after = cursor ∧ (cursor.rest = [] ∨ cursor.atCloser = true ∨ atom? brackets cursor = none ∨
      ∃ next, atom? brackets cursor = some (.operator Glyph.range, next)) := by
  unfold atomStep at step
  split at step
  · rename_i halt
    cases step
    simp only [Bool.or_eq_true, Cursor.atEnd, List.isEmpty_iff] at halt
    exact ⟨rfl, halt.elim .inl fun closer => .inr (.inl closer)⟩
  · split at step
    · rename_i unread
      cases step
      exact ⟨rfl, .inr (.inr (.inl unread))⟩
    · rename_i found next read
      split at step
      · rename_i dots
        cases step
        rw [Tree.eq_operator_of_isOperator dots] at read
        exact ⟨rfl, .inr (.inr (.inr ⟨next, read⟩))⟩
      · cases step

theorem cluster?_eq_some (found : cluster? brackets cursor = some (tree, after)) :
    Tree.ofCluster? ((atoms brackets).collect cursor).1 = some tree ∧
      after = ((atoms brackets).collect cursor).2 := by
  obtain ⟨inner, read, same⟩ := Option.map_eq_some_iff.mp found
  cases same
  exact ⟨read, rfl⟩

theorem rowStep_take (step : rowStep brackets cursor = .take tree after) :
    (∃ next, range? cursor = some next ∧ tree = .operator Glyph.range ∧
      after = next.expecting true) ∨ cluster? brackets cursor = some (tree, after) := by
  unfold rowStep at step
  split at step
  · cases step
  · split at step
    · cases step
    · split at step
      · rename_i next read
        cases step
        exact .inl ⟨next, read, rfl, rfl⟩
      · split at step
        · rename_i read
          cases step
          exact .inr read
        · cases step

theorem rowStep_skip (step : rowStep brackets cursor = .skip after) :
    after = cursor.advance 1 ∧ cursor.peek = some ' ' ∧ cursor.peekAt 1 ≠ some ' ' := by
  unfold rowStep at step
  split at step
  · cases step
  · split at step
    · rename_i blank
      cases step
      exact ⟨rfl, blank⟩
    · split at step
      · cases step
      · split at step <;> cases step

theorem rowStep_stop (step : rowStep brackets cursor = .stop after) :
    after = cursor ∧ (cursor.rest = [] ∨ ¬ (cursor.peek = some ' ' ∧ cursor.peekAt 1 ≠ some ' ') ∧
      range? cursor = none ∧ cluster? brackets cursor = none) := by
  unfold rowStep at step
  split at step
  · rename_i halt
    cases step
    exact ⟨rfl, .inl (by simpa [Cursor.atEnd] using halt)⟩
  · split at step
    · cases step
    · rename_i blank
      split at step
      · cases step
      · rename_i dots
        split at step
        · cases step
        · rename_i unread
          cases step
          exact ⟨rfl, .inr ⟨blank, dots, unread⟩⟩

theorem cellStep_take (step : cellStep brackets cursor = .take tree after) :
    (row brackets cursor).1 = some tree ∧ after = (row brackets cursor).2 := by
  unfold cellStep at step
  split at step
  · cases step
  · split at step
    · cases step
    · split at step
      · rename_i read
        cases step
        exact ⟨read, rfl⟩
      · cases step

theorem cellStep_skip (step : cellStep brackets cursor = .skip after) :
    ∃ next, cursor.eat? "  " = some next ∧
      after = { next with rest := next.rest.dropWhile (· == ' '), expectTerm := true } := by
  unfold cellStep at step
  split at step
  · cases step
  · split at step
    · rename_i next eaten
      cases step
      exact ⟨next, eaten, rfl⟩
    · split at step <;> cases step

theorem cellStep_stop (step : cellStep brackets cursor = .stop after) :
    cursor.rest = [] ∧ after = cursor ∨
      cursor.eat? "  " = none ∧ (row brackets cursor).1 = none ∧
        after = (row brackets cursor).2 := by
  unfold cellStep at step
  split at step
  · rename_i halt
    cases step
    exact .inl ⟨by simpa [Cursor.atEnd] using halt, rfl⟩
  · split at step
    · cases step
    · rename_i eaten
      split at step
      · cases step
      · rename_i read
        cases step
        exact .inr ⟨eaten, read, rfl⟩

theorem gridStep_take {cells : List Tree} (step : gridStep brackets cursor = .take cells after) :
    (gridRow brackets cursor).1 = some cells ∧ after = (gridRow brackets cursor).2 := by
  unfold gridStep at step
  split at step
  · cases step
  · split at step
    · cases step
    · split at step
      · rename_i read
        cases step
        exact ⟨read, rfl⟩
      · cases step

theorem gridStep_skip (step : gridStep brackets cursor = .skip after) :
    ∃ next, cursor.eat? ";" = some next ∧ after = next.expecting true := by
  unfold gridStep at step
  split at step
  · cases step
  · split at step
    · rename_i next eaten
      cases step
      exact ⟨next, eaten, rfl⟩
    · split at step <;> cases step

theorem gridStep_stop (step : gridStep brackets cursor = .stop after) :
    cursor.rest = [] ∧ after = cursor ∨
      cursor.eat? ";" = none ∧ (gridRow brackets cursor).1 = none ∧
        after = (gridRow brackets cursor).2 := by
  unfold gridStep at step
  split at step
  · rename_i halt
    cases step
    exact .inl ⟨by simpa [Cursor.atEnd] using halt, rfl⟩
  · split at step
    · cases step
    · rename_i eaten
      split at step
      · cases step
      · rename_i read
        cases step
        exact .inr ⟨eaten, read, rfl⟩

theorem gridRow_eq_some {cells : List Tree} (found : (gridRow brackets cursor).1 = some cells) :
    cells ≠ [] ∧ ((rowCells brackets).collect cursor).1 = cells := by
  simp only [gridRow] at found
  split at found
  · cases found
  · rename_i nonempty
    cases found
    exact ⟨by simpa using nonempty, rfl⟩

theorem bracketed?_eq_some (found : bracketed? brackets cursor = some (tree, after)) :
    ∃ bracket inside, cursor.open? = some (bracket, inside) ∧
      let inner := grid brackets ((inside.awaiting bracket.closer).expecting true)
      tree = .bracketed bracket.glyph (closing inner.2).1
        (if inner.1.isEmptyGrid then none else some inner.1) ∧
      after = ((closing inner.2).2.awaiting cursor.closer).expecting false := by
  obtain ⟨⟨bracket, inside⟩, opened, same⟩ := Option.map_eq_some_iff.mp found
  cases same
  exact ⟨bracket, inside, opened, rfl, rfl⟩

theorem isOperand_of_brackets {depth : Nat}
    (found : (Grammar.brackets depth).run cursor = some (tree, after)) : tree.isOperand = true := by
  cases depth with
  | zero => cases found
  | succ depth =>
    obtain ⟨bracket, inside, _, rfl, _⟩ := bracketed?_eq_some found
    rfl

end Grammar
end PlainMath
