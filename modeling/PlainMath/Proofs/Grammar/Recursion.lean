import PlainMath.Proofs.Grammar.Coverage
import PlainMath.Proofs.Grammar.Nesting

/-! The recursion of the rules comes to an end. A rule that gives a result has gone forward,
and one that gives none stands where it was, up to blanks. So each turn of a loop and each
bracket that is opened leave less to read: the rules call each other along a well-founded
relation, and the depth to which brackets are read is never reached. -/
namespace PlainMath

namespace Cursor

structure Advances (before after : Cursor) : Prop extends before.Leads after where
  shorter : after.rest.length < before.rest.length

def Skips (before after : Cursor) : Prop :=
  after.closer = before.closer ∧ ∃ count, before.rest = List.replicate count ' ' ++ after.rest

theorem Steps.seek {source : List Char} {before after : Cursor} (steps : before.Steps after)
    (within : before.rest <:+ source) : after.seek source (before.position source) = before := by
  obtain ⟨count, _, _, rfl⟩ := steps
  obtain ⟨front, rfl⟩ := within
  simp [Cursor.seek, position, advance]

theorem Advances.position {source : List Char} {before after : Cursor}
    (advances : before.Advances after) (within : before.rest <:+ source) :
    before.position source < after.position source ∧ after.position source ≤ source.length ∧
      after.rest = source.drop (after.position source) := by
  obtain ⟨front, rfl⟩ := advances.rest.trans within
  have room := within.length_le
  have less := advances.shorter
  refine ⟨?_, Nat.sub_le _ _, ?_⟩
  · simp only [Cursor.position]
    omega
  · simp [Cursor.position]

end Cursor

namespace Repetition
variable {α : Type} {repetition : Repetition α} {cursor after : Cursor}

def Continues (repetition : Repetition α) (cursor after : Cursor) : Prop :=
  (∃ value, repetition.step cursor = .take value after) ∨ repetition.step cursor = .skip after

theorem Forward.advances (forward : repetition.Forward) (more : repetition.Continues cursor after) :
    cursor.Advances after := by
  rcases more with ⟨value, step⟩ | step
  · exact ⟨forward.take step, repetition.take_shorter step⟩
  · exact ⟨forward.skip step, repetition.skip_shorter step⟩

theorem Visits.length_le (visits : repetition.Visits cursor after) :
    after.rest.length ≤ cursor.rest.length := by
  induction visits with
  | first => exact Nat.le_refl _
  | take _ step ih => exact Nat.le_trans (Nat.le_of_lt (repetition.take_shorter step)) ih
  | skip _ step ih => exact Nat.le_trans (Nat.le_of_lt (repetition.skip_shorter step)) ih

theorem collect_congr {first second : Repetition α} {size : Nat}
    (same : ∀ cursor, cursor.rest.length < size → first.step cursor = second.step cursor)
    (short : cursor.rest.length < size) : first.collect cursor = second.collect cursor := by
  refine first.collect_induct (P := fun cursor found => cursor.rest.length < size →
    found = second.collect cursor) ?_ ?_ ?_ cursor short
  · intro cursor after value more step ih short
    have less := first.take_shorter step
    rw [second.collect_take ((same cursor short).symm.trans step), ← ih (by omega)]
  · intro cursor after more step ih short
    have less := first.skip_shorter step
    rw [second.collect_skip ((same cursor short).symm.trans step), ← ih (by omega)]
  · intro cursor last step short
    rw [second.collect_stop ((same cursor short).symm.trans step)]

end Repetition

namespace Grammar

/-- The readers agree where fewer than so many characters are left. -/
def Agree (size : Nat) (first second : Reader) : Prop :=
  ∀ cursor : Cursor, cursor.rest.length < size → first.run cursor = second.run cursor

section
variable {size : Nat} {first second : Reader} (agree : Agree size first second)
variable {cursor : Cursor} (short : cursor.rest.length < size)
include agree short

theorem cluster?_congr : cluster? first cursor = cluster? second cursor := by
  have steps (cursor : Cursor) (short : cursor.rest.length < size) :
      (atoms first).step cursor = (atoms second).step cursor := by
    simp only [atoms, atomStep, atom?, agree cursor short]
  simp only [cluster?, Repetition.collect_congr steps short]

theorem row_congr : row first cursor = row second cursor := by
  have steps (cursor : Cursor) (short : cursor.rest.length < size) :
      (rowElements first).step cursor = (rowElements second).step cursor := by
    simp only [rowElements, rowStep, cluster?_congr agree short]
  simp only [row, Repetition.collect_congr steps short]

theorem gridRow_congr : gridRow first cursor = gridRow second cursor := by
  have steps (cursor : Cursor) (short : cursor.rest.length < size) :
      (rowCells first).step cursor = (rowCells second).step cursor := by
    simp only [rowCells, cellStep, row_congr agree short]
  simp only [gridRow, Repetition.collect_congr steps short]

theorem grid_congr : grid first cursor = grid second cursor := by
  have steps (cursor : Cursor) (short : cursor.rest.length < size) :
      (gridRows first).step cursor = (gridRows second).step cursor := by
    simp only [gridRows, gridStep, gridRow_congr agree short]
  simp only [grid, Repetition.collect_congr steps short]

omit short in
theorem bracketed?_congr (short : cursor.rest.length < size + 1) :
    bracketed? first cursor = bracketed? second cursor := by
  -- the opener takes a character, so that a bracket depends on shorter ones only
  refine Option.map_congr fun found opened => ?_
  have less := Cursor.open?_shorter opened
  have inner : grid first ((found.2.awaiting found.1.closer).expecting true) =
      grid second ((found.2.awaiting found.1.closer).expecting true) :=
    grid_congr agree (by simp only [Cursor.rest_expecting, Cursor.rest_awaiting]; omega)
  rw [inner]

end

theorem open?_ended {cursor : Cursor} (ended : cursor.rest = []) : cursor.open? = none := by
  cases opened : cursor.open? with
  | none => rfl
  | some found =>
    have less := Cursor.open?_shorter opened
    rw [ended] at less
    cases less

theorem brackets_agree {size depth depth' : Nat} (room : size ≤ depth) (room' : size ≤ depth') :
    Agree (size + 1) (brackets depth) (brackets depth') := by
  induction size generalizing depth depth' with
  | zero =>
    intro cursor short
    -- nothing is left that could open a bracket, so that no depth is needed
    have closed := open?_ended (List.length_eq_zero_iff.mp (Nat.lt_one_iff.mp short))
    rw [run_unopened closed, run_unopened closed]
  | succ size ih =>
    rcases depth with _ | depth
    · exact absurd room (Nat.not_succ_le_zero _)
    rcases depth' with _ | depth'
    · exact absurd room' (Nat.not_succ_le_zero _)
    intro cursor short
    exact bracketed?_congr (ih (Nat.le_of_succ_le_succ room) (Nat.le_of_succ_le_succ room')) short

def nested : Reader where
  run := Cursor.bracketed?
  shorter {cursor _ _} found := (brackets cursor.rest.length).shorter found

theorem nested_forward : nested.Forward :=
  fun {cursor _ _} found => brackets_forward cursor.rest.length found

theorem agree_nested (depth : Nat) : Agree (depth + 1) (brackets depth) nested :=
  fun _ short => brackets_agree (Nat.le_of_lt_succ short) (Nat.le_refl _) _ (Nat.lt_succ_self _)

theorem bracketed?_nested (cursor : Cursor) : cursor.bracketed? = bracketed? nested cursor := by
  unfold Cursor.bracketed? Cursor.brackets
  cases size : cursor.rest.length with
  | zero =>
    have closed := open?_ended (List.length_eq_zero_iff.mp size)
    simp [brackets, bracketed?, closed]
  | succ depth => exact bracketed?_congr (agree_nested depth) (by omega)

theorem eq_nested {reader : Reader}
    (solves : ∀ cursor, reader.run cursor = bracketed? reader cursor) (size : Nat) :
    Agree size reader nested := by
  induction size with
  | zero => exact fun _ short => absurd short (Nat.not_lt_zero _)
  | succ size ih =>
    intro cursor short
    rw [solves cursor, bracketed?_congr ih short]
    exact (bracketed?_nested cursor).symm

inductive Rule where
  | grid
  | gridRow
  | row
  | cluster
  | bracketed

/-- A rule calls the next one at the cursors at which its loop takes a turn, and an opened bracket
calls for a grid again. -/
inductive Calls : Rule × Cursor → Rule × Cursor → Prop
  | gridRow {first cursor : Cursor} : (gridRows nested).Visits first cursor →
      Calls (.grid, first) (.gridRow, cursor)
  | row {first cursor : Cursor} : (rowCells nested).Visits first cursor →
      Calls (.gridRow, first) (.row, cursor)
  | cluster {first cursor : Cursor} : (rowElements nested).Visits first cursor →
      Calls (.row, first) (.cluster, cursor)
  | bracketed {first cursor : Cursor} : (atoms nested).Visits first cursor →
      Calls (.cluster, first) (.bracketed, cursor)
  | grid {cursor inside : Cursor} {bracket : Bracket} : cursor.open? = some (bracket, inside) →
      Calls (.bracketed, cursor) (.grid, (inside.awaiting bracket.closer).expecting true)

/-- How many calls there can be before a bracket is opened. -/
def Rule.rank : Rule → Nat
  | .grid => 4
  | .gridRow => 3
  | .row => 2
  | .cluster => 1
  | .bracketed => 0

/-- Less is left to read, or as much and the rule is further down. -/
def callSize (call : Rule × Cursor) : Nat := 5 * call.2.rest.length + call.1.rank

theorem callSize_lt {caller callee : Rule × Cursor} (calls : Calls caller callee) :
    callSize callee < callSize caller := by
  cases calls with
  | gridRow visits | row visits | cluster visits | bracketed visits =>
    have room := visits.length_le
    simp only [callSize, Rule.rank]
    omega
  | grid opened =>
    have less := Cursor.open?_shorter opened
    simp only [callSize, Rule.rank, Cursor.rest_expecting, Cursor.rest_awaiting]
    omega

theorem leaf?_steps {reader : List Char → Option (Tree × Nat)} (bounded : Lexeme.Bounded reader)
    {cursor after : Cursor} {tree : Tree} (found : leaf? reader cursor = some (tree, after)) :
    cursor.Steps after := by
  obtain ⟨length, read, rfl⟩ := leaf?_eq_some found
  exact ⟨length, (bounded read).1, (bounded read).2, rfl⟩

theorem range?_steps {cursor after : Cursor} (found : range? cursor = some after) :
    cursor.Steps after :=
  leaf?_steps Lexeme.operator?_bounded (range?_eq_some found)

theorem atom?_range_steps {cursor after : Cursor}
    (found : atom? nested cursor = some (.operator Glyph.range, after)) : cursor.Steps after := by
  -- the dots of a range are a leaf, so that reading them as an atom changes nothing but the place
  rcases atom?_eq_some found with bracket | ⟨reader, listed, leaf⟩
  · cases isOperand_of_brackets bracket
  · exact leaf?_steps (Lexeme.readers_bounded reader listed) leaf

/-- What the rules do at a cursor. Those for leaves, delimiters, clusters and brackets go forward or
leave the cursor as it is, and those for rows go forward or over blanks only. -/
structure Progress (cursor : Cursor) : Prop where
  leaf : ∀ reader ∈ Lexeme.quotedIdentifier? :: Lexeme.readers, ∀ tree after,
    leaf? reader cursor = some (tree, after) → cursor.Steps after
  opener : ∀ bracket after, cursor.open? = some (bracket, after) → cursor.Steps after
  closer : ∀ glyph after, cursor.close? = some (glyph, after) → cursor.Steps after
  range : ∀ after, range? cursor = some after → cursor.Steps after
  cluster : ∀ tree after, cursor.cluster? = some (tree, after) → cursor.Advances after
  noCluster : cursor.cluster? = none → (atoms cursor.brackets).collect cursor = ([], cursor)
  bracket : ∀ tree after, cursor.bracketed? = some (tree, after) → cursor.Advances after
  noBracket : cursor.bracketed? = none → cursor.open? = none
  row : ∀ tree, cursor.row.1 = some tree → cursor.Advances cursor.row.2
  noRow : cursor.row.1 = none → cursor.Skips cursor.row.2
  gridRow : ∀ cells, cursor.gridRow.1 = some cells → cursor.Advances cursor.gridRow.2
  noGridRow : cursor.gridRow.1 = none → cursor.Skips cursor.gridRow.2
  grid : cursor.Leads cursor.grid.2

theorem progress (cursor : Cursor) : Progress cursor where
  leaf := by
    rw [List.forall_mem_cons]
    exact ⟨fun _ _ => leaf?_steps Lexeme.quotedIdentifier?_bounded,
      fun reader listed _ _ => leaf?_steps (Lexeme.readers_bounded reader listed)⟩
  opener _ _ := Cursor.open?_steps
  closer _ _ := Cursor.close?_steps
  range _ := range?_steps
  cluster tree after found := by
    refine ⟨?_, cluster?_shorter found⟩
    rw [(cluster?_eq_some found).2]
    exact (atoms_forward (brackets_forward _)).collect cursor
  noCluster unread := by
    -- a step that takes an atom would give a cluster, and one that stops does not move
    obtain ⟨last, stop⟩ := cluster?_eq_none unread
    have collected := (atoms cursor.brackets).collect_stop stop
    rwa [← collect_atoms_nil collected] at collected
  bracket tree after found := ⟨brackets_forward _ found, cursor.brackets.shorter found⟩
  noBracket unread := by
    rw [bracketed?_nested] at unread
    exact Option.map_eq_none_iff.mp unread
  row tree found := ⟨(rowElements_forward (brackets_forward _)).collect cursor, row_shorter found⟩
  noRow unread := by
    refine ⟨((rowElements_forward (brackets_forward _)).collect cursor).closer, ?_⟩
    rcases row_eq_none unread with same | ⟨blank, _⟩
    · exact ⟨0, same.symm⟩
    · exact ⟨1, blank⟩
  gridRow cells found :=
    ⟨(rowCells_forward (brackets_forward _)).collect cursor, gridRow_shorter found⟩
  noGridRow unread :=
    ⟨((rowCells_forward (brackets_forward _)).collect cursor).closer, gridRow_eq_none unread⟩
  grid := (gridRows_forward (brackets_forward _)).collect cursor

/-- The rules go forward and the recursion among them ends. At every cursor they keep to their
contract, a step back from the dots of a range is exact, and a turn of a loop that is not its last
goes forward. Calls are well-founded, and without a bound on their depth the rules are the same and
the only ones. -/
theorem rules_terminate :
    (∀ cursor, Progress cursor) ∧
    (∀ (source : List Char) (cursor after : Cursor), cursor.rest <:+ source →
      (cursor.Advances after → cursor.position source < after.position source ∧
        after.position source ≤ source.length ∧
        after.rest = source.drop (after.position source)) ∧
      ((∃ tree, leaf? Lexeme.operator? cursor = some (tree, after)) ∨
          atom? nested cursor = some (.operator Glyph.range, after) →
        after.seek source (cursor.position source) = cursor)) ∧
    (∀ cursor after, (gridRows nested).Continues cursor after ∨
        (rowCells nested).Continues cursor after ∨ (rowElements nested).Continues cursor after ∨
        (atoms nested).Continues cursor after → cursor.Advances after) ∧
    WellFounded (fun callee caller => Calls caller callee) ∧
    (∀ cursor : Cursor, cursor.grid = grid nested cursor ∧ cursor.gridRow = gridRow nested cursor ∧
      cursor.row = row nested cursor ∧ cursor.cluster? = cluster? nested cursor ∧
      cursor.bracketed? = bracketed? nested cursor) ∧
    ∀ reader : Reader, (∀ cursor, reader.run cursor = bracketed? reader cursor) →
      ∀ cursor, reader.run cursor = cursor.bracketed? := by
  refine ⟨progress, ?_, ?_, ?_, ?_, ?_⟩
  · intro source cursor after within
    refine ⟨fun advances => advances.position within, ?_⟩
    rintro (⟨tree, operator⟩ | dots)
    · exact (leaf?_steps Lexeme.operator?_bounded operator).seek within
    · exact (atom?_range_steps dots).seek within
  · rintro cursor after (more | more | more | more)
    · exact (gridRows_forward nested_forward).advances more
    · exact (rowCells_forward nested_forward).advances more
    · exact (rowElements_forward nested_forward).advances more
    · exact (atoms_forward nested_forward).advances more
  · exact Subrelation.wf callSize_lt (measure callSize).wf
  · intro cursor
    have agree := agree_nested cursor.rest.length
    have short := Nat.lt_succ_self cursor.rest.length
    exact ⟨grid_congr agree short, gridRow_congr agree short, row_congr agree short,
      cluster?_congr agree short, bracketed?_nested cursor⟩
  · intro reader solves cursor
    exact eq_nested solves _ cursor (Nat.lt_succ_self _)

theorem rules_terminate_interval :
    (Cursor.start "(a..b] c".toList).bracketed?.map Prod.snd = some ⟨" c".toList, false, ""⟩ ∧
    (Cursor.start "(a..b] c".toList).Advances ⟨" c".toList, false, ""⟩ ∧
    range? ⟨"..b] c".toList, false, ")"⟩ = some ⟨"b] c".toList, false, ")"⟩ ∧
    Cursor.seek ⟨"b] c".toList, false, ")"⟩ "(a..b] c".toList 2 =
      ⟨"..b] c".toList, false, ")"⟩ := by
  have read : (Cursor.start "(a..b] c".toList).bracketed?.map Prod.snd =
      some ⟨" c".toList, false, ""⟩ := by decide +kernel
  have range : range? ⟨"..b] c".toList, false, ")"⟩ = some ⟨"b] c".toList, false, ")"⟩ := by
    decide +kernel
  refine ⟨read, ?_, range, ?_⟩
  · obtain ⟨⟨tree, after⟩, found, same⟩ := Option.map_eq_some_iff.mp read
    rw [← same]
    exact (rules_terminate.1 _).bracket tree after found
  · exact (rules_terminate.2.1 _ _ _ (by decide)).2 (.inl ⟨_, range?_eq_some range⟩)

end Grammar
end PlainMath
