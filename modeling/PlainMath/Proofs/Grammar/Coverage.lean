import PlainMath.Proofs.Grammar.Progress

/-! How much of a source the outermost grid reads. A row ends at a semicolon or at the
end of the source, so that nothing is lost between the rows. But a row of blanks that a
semicolon ends has no cells, and the grid takes it for the end: it stops in front of
that semicolon, and what follows is not read. -/
namespace PlainMath

namespace Repetition
variable {α : Type} {repetition : Repetition α} {first cursor : Cursor}

/-- The cursors at which the repetition takes a step. -/
inductive Visits (repetition : Repetition α) (first : Cursor) : Cursor → Prop
  | first : Visits repetition first first
  | take {cursor after : Cursor} {value : α} : Visits repetition first cursor →
      repetition.step cursor = .take value after → Visits repetition first after
  | skip {cursor after : Cursor} : Visits repetition first cursor →
      repetition.step cursor = .skip after → Visits repetition first after

theorem collect_of_visits (visits : repetition.Visits first cursor) :
    (repetition.collect cursor).2 = (repetition.collect first).2 := by
  induction visits with
  | first => rfl
  | take _ step ih =>
    rw [repetition.collect_take step] at ih
    exact ih
  | skip _ step ih =>
    rw [repetition.collect_skip step] at ih
    exact ih

theorem exists_visits_stop (first : Cursor) : ∃ cursor, repetition.Visits first cursor ∧
    repetition.step cursor = .stop (repetition.collect first).2 := by
  refine repetition.collect_induct (P := fun start found => repetition.Visits first start →
    ∃ cursor, repetition.Visits first cursor ∧ repetition.step cursor = .stop found.2)
    ?_ ?_ ?_ first .first
  · intro cursor after value more step ih visits
    exact ih (visits.take step)
  · intro cursor after more step ih visits
    exact ih (visits.skip step)
  · intro cursor last step visits
    exact ⟨cursor, visits, step⟩

end Repetition

namespace Lexeme

theorem unknown?_eq_none {input : List Char} (unread : unknown? input = none) :
    input = [] ∨ (∃ rest, input = ' ' :: rest) ∨ ∃ rest, input = ';' :: rest := by
  dsimp only [unknown?] at unread
  split at unread
  · cases input with
    | nil => exact .inl rfl
    | cons c rest =>
      dsimp only at unread
      split at unread
      · rename_i separator
        rcases separator with rfl | rfl
        · exact .inr (.inl ⟨rest, rfl⟩)
        · exact .inr (.inr ⟨rest, rfl⟩)
      · cases unread
  · cases unread

theorem longestSign?_eq_none {table : Symbol.Table} {c : Char} (rest : List Char)
    (signs : ∀ sign ∈ table.signs, sign.1.head? ≠ some c ∧ sign.1 ≠ []) :
    table.longestSign? (c :: rest) = none := by
  cases found : table.longestSign? (c :: rest) with
  | none => rfl
  | some longest =>
    obtain ⟨sign, member, _, _, leads⟩ := Symbol.Table.longestSign?_mem found
    obtain ⟨other, spelled⟩ := signs sign member
    cases shape : sign.1 with
    | nil => exact absurd shape spelled
    | cons c letters =>
      rw [shape] at leads other
      obtain ⟨behind, same⟩ := leads
      exact absurd (congrArg some (List.cons.inj same).1) other

theorem readers_eq_none {c : Char} (separator : c = ' ' ∨ c = ';') (rest : List Char) :
    ∀ reader ∈ readers, reader (c :: rest) = none := by
  have identifiers : Symbol.identifiers.longestSign? (c :: rest) = none := by
    rcases separator with rfl | rfl <;> exact longestSign?_eq_none rest (by decide +kernel)
  have operators : Symbol.operators.longestSign? (c :: rest) = none := by
    rcases separator with rfl | rfl <;> exact longestSign?_eq_none rest (by decide +kernel)
  have letters : letters (c :: rest) = [] := by
    rcases separator with rfl | rfl <;> simp [letters, Symbol.isLetter]
  rcases separator with rfl | rfl <;>
    simp [readers, number?, text?, quoted?, identifier?, quotedIdentifier?, operator?, unknown?,
      letters, identifiers, operators]

end Lexeme

namespace Grammar
variable (depth : Nat) {cursor last : Cursor}

theorem eat?_eq_none {text : String} {behind : List Char} (here : cursor.rest = ';' :: behind)
    (other : text.toList.head? ≠ some ';') : cursor.eat? text = none := by
  unfold Cursor.eat?
  rw [if_neg]
  intro starts
  obtain ⟨spelled, rest, whole⟩ := Cursor.startsWith_iff.mp starts
  cases shape : text.toList with
  | nil => exact spelled (by simpa using shape)
  | cons c letters =>
    rw [shape] at whole other
    rw [here] at whole
    exact other (congrArg some (List.cons.inj whole).1)

theorem brackets_semicolon {behind : List Char} (here : cursor.rest = ';' :: behind) :
    (brackets depth).run cursor = none := by
  have openers : ∀ bracket ∈ Bracket.all, bracket.opener.toList.head? ≠ some ';' := by decide
  cases depth with
  | zero => rfl
  | succ depth =>
    have closed : cursor.open? = none := by
      unfold Cursor.open?
      rw [List.findSome?_eq_none_iff]
      intro bracket member
      rw [eat?_eq_none here (openers bracket member)]
      simp
    simp [brackets, bracketed?, closed]

theorem rowStep_semicolon {behind : List Char} (here : cursor.rest = ';' :: behind) :
    rowStep (brackets depth) cursor = .stop cursor := by
  have readers := Lexeme.readers_eq_none (.inr rfl) behind
  rw [← here] at readers
  have atom : atom? (brackets depth) cursor = none :=
    atom?_eq_none_iff.mpr ⟨brackets_semicolon depth here, readers⟩
  have stop : (atoms (brackets depth)).step cursor = .stop cursor := by
    simp [atoms, atomStep, atom]
  have cluster : cluster? (brackets depth) cursor = none := by
    simp [cluster?, (atoms (brackets depth)).collect_stop stop, Tree.ofCluster?]
  have operator : Lexeme.operator? cursor.rest = none := readers _ (by simp [Lexeme.readers])
  have dots : range? cursor = none := by simp [range?, leaf?, operator]
  have more : cursor.atEnd = false := by simp [Cursor.atEnd, here]
  have blank : cursor.peek ≠ some ' ' := by simp [Cursor.peek, Cursor.peekAt, here]
  simp [rowStep, more, blank, dots, cluster]

theorem row_semicolon {behind : List Char} (here : cursor.rest = ';' :: behind) :
    row (brackets depth) cursor = (none, cursor) := by
  have stop : (rowElements (brackets depth)).step cursor = .stop cursor :=
    rowStep_semicolon depth here
  simp [row, (rowElements (brackets depth)).collect_stop stop, Tree.ofRow?]

def BlankRow (input : List Char) : Prop :=
  ∃ count behind, input = List.replicate (count + 1) ' ' ++ ';' :: behind

theorem cellStep_semicolon {behind : List Char} (here : cursor.rest = ';' :: behind) :
    cellStep (brackets depth) cursor = .stop cursor := by
  have more : cursor.atEnd = false := by simp [Cursor.atEnd, here]
  have wide : cursor.eat? "  " = none := eat?_eq_none here (by decide)
  simp [cellStep, more, wide, row_semicolon depth here]

theorem collect_cells_blank {count : Nat} {behind : List Char}
    (here : cursor.rest = List.replicate (count + 1) ' ' ++ ';' :: behind) :
    ∃ last, (rowCells (brackets depth)).collect cursor = ([], last) ∧ last.rest = ';' :: behind := by
  have more : cursor.atEnd = false := by simp [Cursor.atEnd, here, List.replicate_succ]
  cases count with
  | zero =>
    -- the row steps over the blank and finds nothing behind it
    have next : (cursor.advance 1).rest = ';' :: behind := by simp [here]
    have wide : cursor.eat? "  " = none := by
      simp [Cursor.eat?, Cursor.startsWith, here, List.isPrefixOf]
    have skip : (rowElements (brackets depth)).step cursor = .skip (cursor.advance 1) := by
      simp [rowElements, rowStep, more, Cursor.peek, Cursor.peekAt, here]
    have empty : row (brackets depth) cursor = (none, cursor.advance 1) := by
      have behind : row (brackets depth) (cursor.advance 1) = (none, cursor.advance 1) :=
        row_semicolon depth next
      simp only [row] at behind ⊢
      rwa [(rowElements (brackets depth)).collect_skip skip]
    have stop : (rowCells (brackets depth)).step cursor = .stop (cursor.advance 1) := by
      simp [rowCells, cellStep, more, wide, empty]
    exact ⟨_, (rowCells (brackets depth)).collect_stop stop, next⟩
  | succ count =>
    -- the blanks lead to a cell that is not there
    have wide : cursor.eat? "  " = some (cursor.advance 2) := by
      simp [Cursor.eat?, Cursor.startsWith, here, List.replicate_succ, List.isPrefixOf]
    have dropped : (cursor.advance 2).rest.dropWhile (· == ' ') = ';' :: behind := by
      rw [Cursor.rest_advance, here, List.replicate_succ, List.replicate_succ]
      simp only [List.cons_append, List.drop_succ_cons, List.drop_zero]
      rw [List.dropWhile_append_of_pos (by simp)]
      rfl
    have skip : (rowCells (brackets depth)).step cursor =
        .skip ⟨';' :: behind, true, cursor.closer⟩ := by
      simp only [rowCells, cellStep, more, wide, dropped]
      rfl
    have stop : cellStep (brackets depth) ⟨';' :: behind, true, cursor.closer⟩ =
        .stop ⟨';' :: behind, true, cursor.closer⟩ := cellStep_semicolon depth rfl
    refine ⟨⟨';' :: behind, true, cursor.closer⟩, ?_, rfl⟩
    rw [(rowCells (brackets depth)).collect_skip skip]
    exact (rowCells (brackets depth)).collect_stop stop

theorem gridStep_blank (blank : BlankRow cursor.rest) :
    ∃ last, gridStep (brackets depth) cursor = .stop last ∧ last.rest ≠ [] := by
  obtain ⟨count, behind, here⟩ := blank
  obtain ⟨last, cells, left⟩ := collect_cells_blank depth here
  have more : cursor.atEnd = false := by simp [Cursor.atEnd, here, List.replicate_succ]
  have row : cursor.eat? ";" = none := by
    simp [Cursor.eat?, Cursor.startsWith, here, List.replicate_succ, List.isPrefixOf]
  have empty : gridRow (brackets depth) cursor = (none, last) := by simp [gridRow, cells]
  exact ⟨last, by simp [gridStep, more, row, empty], by simp [left]⟩

variable {depth}

theorem range?_of_atom? {after : Cursor}
    (found : atom? (brackets depth) cursor = some (.operator Glyph.range, after)) :
    range? cursor ≠ none := by
  rcases atom?_eq_some found with bracket | ⟨reader, listed, leaf⟩
  · cases isOperand_of_brackets bracket
  · obtain ⟨length, read, rfl⟩ := leaf?_eq_some leaf
    rcases Lexeme.operator?_of_reader listed read with operator | ⟨c, escaped⟩
    · simp [range?, leaf?, operator, Tree.isOperator]
    · exact absurd escaped (Lexeme.escape_ne (by decide) (by decide) c)

theorem cluster?_eq_none (unread : cluster? (brackets depth) cursor = none) :
    ∃ last, atomStep (brackets depth) cursor = .stop last := by
  cases step : atomStep (brackets depth) cursor with
  | take value after =>
    have taken := (atoms (brackets depth)).collect_take step
    simp only [cluster?, taken, Option.map_eq_none_iff] at unread
    unfold Tree.ofCluster? at unread
    split at unread <;> simp_all
  | skip after => exact absurd step atomStep_not_skip
  | stop last => exact ⟨last, rfl⟩

def RowEnd (input : List Char) : Prop :=
  input = [] ∨ (∃ behind, input = ' ' :: ' ' :: behind) ∨ ∃ behind, input = ';' :: behind

theorem rowStep_stop_outside (outside : cursor.closer = "")
    (step : rowStep (brackets depth) cursor = .stop last) : last = cursor ∧ RowEnd cursor.rest := by
  obtain ⟨same, ended | ⟨single, dots, unread⟩⟩ := rowStep_stop step
  · exact ⟨same, .inl ended⟩
  · obtain ⟨last, stopped⟩ := cluster?_eq_none unread
    have awaited : cursor.atCloser = false := by
      simp [Cursor.atCloser, Cursor.startsWith, outside]
    refine ⟨same, ?_⟩
    obtain ⟨_, ended | closer | unread | ⟨next, range⟩⟩ := atomStep_stop stopped
    · exact .inl ended
    · rw [awaited] at closer
      cases closer
    · have unknown := (atom?_eq_none_iff.mp unread).2 Lexeme.unknown? (by simp [Lexeme.readers])
      rcases Lexeme.unknown?_eq_none unknown with ended | ⟨rest, blank⟩ | semicolon
      · exact .inl ended
      · refine .inr (.inl ?_)
        have second : rest.head? = some ' ' := by
          simpa [Cursor.peek, Cursor.peekAt, blank, List.head?_eq_getElem?] using single
        obtain ⟨behind, more⟩ := List.head?_eq_some_iff.mp second
        exact ⟨behind, by rw [blank, more]⟩
      · exact .inr (.inr semicolon)
    · exact absurd dots (range?_of_atom? range)

theorem rowEnd_row (depth : Nat) (outside : cursor.closer = "") :
    RowEnd (row (brackets depth) cursor).2.rest := by
  refine (rowElements (brackets depth)).collect_induct
    (P := fun cursor found => cursor.closer = "" → RowEnd found.2.rest) ?_ ?_ ?_ cursor outside
  · intro cursor after element more step ih outside
    exact ih (((rowElements_forward (brackets_forward depth)).take step).closer.trans outside)
  · intro cursor after more step ih outside
    exact ih (((rowElements_forward (brackets_forward depth)).skip step).closer.trans outside)
  · intro cursor last step outside
    obtain ⟨rfl, ended⟩ := rowStep_stop_outside outside step
    exact ended

theorem row_eq_none (unread : (row (brackets depth) cursor).1 = none) :
    (row (brackets depth) cursor).2.rest = cursor.rest ∨
      cursor.rest = ' ' :: (row (brackets depth) cursor).2.rest ∧
        (row (brackets depth) cursor).2.rest.head? ≠ some ' ' := by
  have empty : ((rowElements (brackets depth)).collect cursor).1 = [] := by
    cases found : ((rowElements (brackets depth)).collect cursor).1 with
    | nil => rfl
    | cons element elements =>
      simp only [row, found] at unread
      unfold Tree.ofRow? at unread
      split at unread <;> simp_all
  refine (rowElements (brackets depth)).collect_induct
    (P := fun cursor found => found.1 = [] → found.2.rest = cursor.rest ∨
      cursor.rest = ' ' :: found.2.rest ∧ found.2.rest.head? ≠ some ' ') ?_ ?_ ?_ cursor empty
  · intro cursor after element more step ih empty
    cases empty
  · intro cursor after more step ih empty
    obtain ⟨rfl, first, second⟩ := rowStep_skip step
    obtain ⟨rest, blank⟩ : ∃ rest, cursor.rest = ' ' :: rest := by
      refine List.head?_eq_some_iff.mp ?_
      simpa [Cursor.peek, Cursor.peekAt, List.head?_eq_getElem?] using first
    have single : rest.head? ≠ some ' ' := by
      simpa [Cursor.peekAt, blank, List.head?_eq_getElem?] using second
    simp only [Cursor.rest_advance, blank, List.drop_succ_cons, List.drop_zero] at ih
    rcases ih empty with same | ⟨other, _⟩
    · exact .inr ⟨by rw [blank, same], by rw [same]; exact single⟩
    · rw [other] at single
      exact absurd rfl single
  · intro cursor last step _
    exact .inl (by rw [(rowStep_stop step).1])

theorem gridRow_stops (depth : Nat) (outside : cursor.closer = "") :
    (gridRow (brackets depth) cursor).2.rest = [] ∨
      ∃ behind, (gridRow (brackets depth) cursor).2.rest = ';' :: behind := by
  have forward := rowCells_forward (brackets_forward depth)
  refine (rowCells (brackets depth)).collect_induct
    (P := fun cursor found => cursor.closer = "" →
      found.2.rest = [] ∨ ∃ behind, found.2.rest = ';' :: behind) ?_ ?_ ?_ cursor outside
  · intro cursor after cell more step ih outside
    exact ih ((forward.take step).closer.trans outside)
  · intro cursor after more step ih outside
    exact ih ((forward.skip step).closer.trans outside)
  · intro cursor last step outside
    rcases cellStep_stop step with ⟨ended, rfl⟩ | ⟨single, unread, rfl⟩
    · exact .inl ended
    · rcases rowEnd_row depth outside with ended | ⟨behind, blanks⟩ | semicolon
      · exact .inl ended
      · -- two blanks would have led to the next cell, and no row steps over a blank up to them
        rcases row_eq_none unread with same | ⟨_, first⟩
        · rw [blanks] at same
          have eaten : cursor.eat? "  " ≠ none := by
            simp [Cursor.eat?, Cursor.startsWith, ← same, List.isPrefixOf]
          exact absurd single eaten
        · rw [blanks] at first
          exact absurd rfl first
      · exact .inr semicolon

theorem gridRow_eq_none (unread : (gridRow (brackets depth) cursor).1 = none) :
    ∃ count, cursor.rest =
      List.replicate count ' ' ++ (gridRow (brackets depth) cursor).2.rest := by
  have empty : ((rowCells (brackets depth)).collect cursor).1 = [] := by
    simpa [gridRow] using unread
  refine (rowCells (brackets depth)).collect_induct
    (P := fun cursor found => found.1 = [] →
      ∃ count, cursor.rest = List.replicate count ' ' ++ found.2.rest) ?_ ?_ ?_ cursor empty
  · intro cursor after cell more step ih empty
    cases empty
  · intro cursor after more step ih empty
    obtain ⟨next, eaten, rfl⟩ := cellStep_skip step
    obtain ⟨count, left⟩ := ih empty
    obtain ⟨size, blanks⟩ : ∃ size, next.rest.takeWhile (· == ' ') = List.replicate size ' ' := by
      refine ⟨_, List.eq_replicate_of_mem fun c member => ?_⟩
      exact eq_of_beq (List.all_eq_true.mp List.all_takeWhile c member)
    have whole : next.rest = List.replicate size ' ' ++ (List.replicate count ' ' ++ more.2.rest) := by
      rw [← blanks, ← left, List.takeWhile_append_dropWhile]
    refine ⟨2 + (size + count), ?_⟩
    rw [(Cursor.eat?_eq_some eaten).2, whole, ← List.replicate_append_replicate,
      ← List.replicate_append_replicate, List.append_assoc, List.append_assoc]
    rfl
  · intro cursor last step _
    rcases cellStep_stop step with ⟨_, rfl⟩ | ⟨_, unread, rfl⟩
    · exact ⟨0, rfl⟩
    · rcases row_eq_none unread with same | ⟨blank, _⟩
      · exact ⟨0, by rw [same]; rfl⟩
      · exact ⟨1, blank⟩

theorem gridStep_stop_outside (outside : cursor.closer = "")
    (step : gridStep (brackets depth) cursor = .stop last) :
    last.rest = [] ∨ ∃ count behind, cursor.rest = List.replicate (count + 1) ' ' ++ ';' :: behind ∧
      last.rest = ';' :: behind := by
  rcases gridStep_stop step with ⟨ended, rfl⟩ | ⟨more, unread, rfl⟩
  · exact .inl ended
  · obtain ⟨count, whole⟩ := gridRow_eq_none unread
    rcases gridRow_stops depth outside with ended | ⟨behind, here⟩
    · exact .inl ended
    · rw [here] at whole
      refine .inr ?_
      cases count with
      | zero =>
        have eaten : cursor.eat? ";" ≠ none := by
          simp [Cursor.eat?, Cursor.startsWith, whole, List.isPrefixOf]
        exact absurd more eaten
      | succ count => exact ⟨count, behind, whole, here⟩

theorem visits_gridRows {source : List Char}
    (visits : (gridRows (brackets depth)).Visits (Cursor.start source) cursor) :
    cursor.closer = "" ∧ cursor.rest <:+ source ∧
      (cursor.rest = source ∨ (∃ front, source = front ++ ';' :: cursor.rest) ∨
        cursor.rest = [] ∨ ∃ behind, cursor.rest = ';' :: behind) := by
  have forward := gridRows_forward (brackets_forward depth)
  induction visits with
  | first => exact ⟨rfl, List.suffix_refl _, .inl rfl⟩
  | @take cursor after cells _ step ih =>
    obtain ⟨outside, within, _⟩ := ih
    have leads := forward.take step
    refine ⟨leads.closer.trans outside, leads.rest.trans within, ?_⟩
    rw [(gridStep_take step).2]
    exact .inr (.inr (gridRow_stops depth outside))
  | @skip cursor after _ step ih =>
    obtain ⟨outside, ⟨front, within⟩, _⟩ := ih
    have leads := forward.skip step
    refine ⟨leads.closer.trans outside, leads.rest.trans ⟨front, within⟩, .inr (.inl ⟨front, ?_⟩)⟩
    obtain ⟨next, eaten, rfl⟩ := gridStep_skip step
    rw [← within, (Cursor.eat?_eq_some eaten).2]
    rfl

theorem blankRow_start {source behind : List Char} {count : Nat}
    (visits : (gridRows (brackets depth)).Visits (Cursor.start source) cursor)
    (here : cursor.rest = List.replicate (count + 1) ' ' ++ ';' :: behind) :
    ∃ front, source = front ++ List.replicate (count + 1) ' ' ++ ';' :: behind ∧
      (front = [] ∨ ∃ before, front = before ++ [';']) := by
  obtain ⟨_, _, whole | ⟨before, whole⟩ | ended | ⟨other, semicolon⟩⟩ := visits_gridRows visits
  · exact ⟨[], by rw [← whole, here, List.nil_append], .inl rfl⟩
  · refine ⟨before ++ [';'], ?_, .inr ⟨before, rfl⟩⟩
    rw [whole, here]
    simp
  · rw [ended] at here
    cases here
  · rw [semicolon] at here
    cases here

end Grammar

open Grammar

/-- The outermost grid reads the whole source unless it comes to a row of blanks that a semicolon
ends. Then it stops at this semicolon, in front of which there are only blanks up to the semicolon
of the row before or to the start of the source. -/
theorem grid_reads_all_iff (source : String) :
    let start := Cursor.start source.toList
    (start.grid.2.rest = [] ↔
        ∀ cursor, (gridRows start.brackets).Visits start cursor → ¬ BlankRow cursor.rest) ∧
      (start.grid.2.rest = [] ∨ ∃ front count behind,
        source.toList = front ++ List.replicate (count + 1) ' ' ++ ';' :: behind ∧
          (front = [] ∨ ∃ before, front = before ++ [';']) ∧ start.grid.2.rest = ';' :: behind) := by
  intro start
  obtain ⟨cursor, visits, stop⟩ : ∃ cursor, (gridRows start.brackets).Visits start cursor ∧
      gridStep start.brackets cursor = .stop start.grid.2 :=
    (gridRows start.brackets).exists_visits_stop start
  have outside := (visits_gridRows visits).1
  have ended := gridStep_stop_outside outside stop
  refine ⟨⟨?_, ?_⟩, ?_⟩
  · intro read cursor visits blank
    obtain ⟨last, stopped, left⟩ := gridStep_blank start.rest.length blank
    have collected := Repetition.collect_of_visits visits
    rw [(gridRows start.brackets).collect_stop stopped] at collected
    have same : last = start.grid.2 := collected
    rw [same] at left
    exact left read
  · intro never
    rcases ended with read | ⟨count, behind, here, _⟩
    · exact read
    · exact absurd ⟨count, behind, here⟩ (never cursor visits)
  · rcases ended with read | ⟨count, behind, here, left⟩
    · exact .inl read
    · obtain ⟨front, whole, first⟩ := blankRow_start visits here
      exact .inr ⟨front, count, behind, whole, first, left⟩

theorem grid_leaves_behind_blank_row :
    (Cursor.start "a; ;b".toList).grid.2.rest = ";b".toList := by
  decide +kernel

end PlainMath
