import PlainMath.Proofs.Arrow.Interleaving

/-! Insertions can be taken back. Each is recorded with the columns that it had in
the line at its time, so the last one has to go first: then each finds its line as it
left it. The lines of a text come back whatever the number of the marks and however
they nest or cross, and insertions into other lines in between do not matter. -/
namespace PlainMath.Arrow
open Text

section
variable {insertion : Insertion} {before inside : List Char}

theorem apply_append (behind : List Char) (start : before.length = insertion.start)
    (stop : (before ++ inside).length = insertion.stop) :
    insertion.apply (before ++ inside ++ behind) =
      before ++ insertion.opening ++ inside ++ ')' :: behind := by
  have size : insertion.stop - insertion.start = inside.length := by
    rw [← stop, ← start, List.length_append, Nat.add_sub_cancel_left]
  rw [Insertion.apply, List.drop_left' stop, List.append_assoc before, List.take_left' start,
    List.drop_left' start, size, List.take_left]

theorem revert_append (behind : List Char) (start : before.length = insertion.start)
    (stop : (before ++ inside).length = insertion.stop) :
    insertion.revert (before ++ insertion.opening ++ inside ++ ')' :: behind) =
      before ++ inside ++ behind := by
  have closing : (before ++ insertion.opening ++ inside).length =
      insertion.stop + insertion.opening.length := by
    rw [← stop]
    simp only [List.length_append]
    omega
  have unclosed : (before ++ insertion.opening ++ inside ++ ')' :: behind).eraseIdx
      (insertion.stop + insertion.opening.length) =
        before ++ insertion.opening ++ inside ++ behind := by
    rw [List.eraseIdx_append_of_length_le (Nat.le_of_eq closing), closing, Nat.sub_self,
      List.eraseIdx_cons_zero]
  have opening : (before ++ insertion.opening).length =
      insertion.start + insertion.opening.length := by
    rw [List.length_append, start]
  rw [Insertion.revert, unclosed, List.append_assoc _ inside, List.drop_left' opening,
    List.append_assoc before, List.take_left' start, List.append_assoc]

end

theorem revert_apply {insertion : Insertion} {line : List Char}
    (ordered : insertion.start ≤ insertion.stop) (room : insertion.stop ≤ line.length) :
    insertion.revert (insertion.apply line) = line := by
  have cut : (line.take insertion.stop).take insertion.start ++
      (line.take insertion.stop).drop insertion.start ++ line.drop insertion.stop = line := by
    rw [List.take_append_drop, List.take_append_drop]
  have start : ((line.take insertion.stop).take insertion.start).length = insertion.start := by
    simp only [List.length_take]
    omega
  have stop : ((line.take insertion.stop).take insertion.start ++
      (line.take insertion.stop).drop insertion.start).length = insertion.stop := by
    rw [List.take_append_drop, List.length_take, Nat.min_eq_left room]
  have undone := revert_append (line.drop insertion.stop) start stop
  rwa [← apply_append _ start stop, cut] at undone

theorem insertion?_eq_some {mark : Mark} {length : Nat} {insertion : Insertion}
    (found : insertion? mark length = some insertion) :
    insertion.line = mark.line ∧ insertion.opening = opening mark ∧
      insertion.start < insertion.stop ∧ insertion.stop ≤ length := by
  rw [insertion?] at found
  split at found
  · rename_i order
    cases found
    exact ⟨rfl, rfl, order, Nat.min_le_right _ _⟩
  · cases found

def undo (lines : List (List Char)) (insertion : Insertion) : List (List Char) :=
  lines.modify insertion.line insertion.revert

theorem undo_modify_apply {lines : List (List Char)} {insertion : Insertion}
    (ordered : insertion.start ≤ insertion.stop)
    (room : insertion.stop ≤ (lines.getD insertion.line []).length) :
    undo (lines.modify insertion.line insertion.apply) insertion = lines := by
  refine List.ext_getElem? fun index => ?_
  rw [undo, List.getElem?_modify, List.getElem?_modify]
  by_cases own : insertion.line = index
  · subst own
    cases target : lines[insertion.line]? with
    | none => rfl
    | some line =>
      rw [List.getD_eq_getElem?_getD, target, Option.getD_some] at room
      simp [revert_apply ordered room]
  · simp [own]

/-- After a number of marks, the insertions lead back to the drawn lines. In each line they are
those of the marks that touch it. -/
structure Undoable (drawn : List (List Char)) (done : List Mark) (progress : Progress) : Prop where
  undone : progress.insertions.reverse.foldl undo progress.lines = drawn
  recorded : ∀ index, (progress.insertions.filter (·.line = index)).map (·.opening) =
    (touching done index (drawn.getD index []).length).map opening

theorem Undoable.start (drawn : List (List Char)) : Undoable drawn [] ⟨drawn, []⟩ :=
  ⟨rfl, fun _ => rfl⟩

theorem Undoable.mark {drawn : List (List Char)} {done : List Mark} {progress : Progress}
    (undoable : Undoable drawn done progress) (placed : Placed drawn done progress) {mark : Mark}
    (wide : mark.start < mark.stop) (others : ∀ other ∈ done, other.start < other.stop) :
    Undoable drawn (done ++ [mark]) (progress.mark mark) := by
  have placing := placed.insertion?_mark wide others
  by_cases inside : mark.start < (drawn.getD mark.line []).length
  · rw [if_pos inside] at placing
    generalize placedInsertion _ _ mark = insertion at placing
    obtain ⟨(own : insertion.line = mark.line), (spelled : insertion.opening = opening mark),
      order, room⟩ := insertion?_eq_some placing
    rw [mark_of_insertion (placed.moved mark) placing]
    constructor
    · -- the insertion of this mark is the first to be taken back, from the line that it made
      have back : undo (progress.lines.modify mark.line insertion.apply) insertion =
          progress.lines := by
        rw [← own] at room ⊢
        exact undo_modify_apply (Nat.le_of_lt order) room
      rw [List.reverse_append, List.foldl_append, List.reverse_singleton, List.foldl_cons,
        List.foldl_nil]
      exact (congrArg (progress.insertions.reverse.foldl undo) back).trans undoable.undone
    · intro index
      rw [List.filter_append, List.map_append, undoable.recorded, touching_concat, List.map_append]
      by_cases same : mark.line = index
      · subst same
        rw [if_pos ⟨rfl, inside⟩]
        simp [own, spelled]
      · simp [own, same]
  · rw [if_neg inside] at placing
    rw [mark_of_none (placed.moved mark) placing]
    refine ⟨undoable.undone, fun index => ?_⟩
    rw [touching_concat, if_neg, List.append_nil, undoable.recorded]
    rintro ⟨rfl, there⟩
    exact inside there

theorem Undoable.foldl_mark {drawn : List (List Char)} (rest done : List Mark) (progress : Progress)
    (undoable : Undoable drawn done progress) (placed : Placed drawn done progress)
    (wide : ∀ mark ∈ done ++ rest, mark.start < mark.stop) :
    Undoable drawn (done ++ rest) (rest.foldl Progress.mark progress) := by
  induction rest generalizing done progress with
  | nil => simpa using undoable
  | cons mark rest ih =>
    have first := wide mark (by simp)
    have others : ∀ other ∈ done, other.start < other.stop :=
      fun other member => wide other (by simp [member])
    have tail := ih (done ++ [mark]) (progress.mark mark) (undoable.mark placed first others)
      (placed.mark first others) (by simpa using wide)
    simpa using tail

/-- Taking all insertions back, the last one first and each from its own line, gives the text as
it was drawn. The insertions into a line are those of the marks that touch it, the widest first. -/
theorem braced_lines_undo (text : List Char) :
    (braced text).insertions.reverse.foldl undo (braced text).lines = lines text ∧
      ∀ index, ((braced text).insertions.filter (·.line = index)).map (·.opening) =
        (marksOn (lines text) index ((lines text).getD index []).length).map opening := by
  have wide : ∀ mark ∈ widestFirst (marks (lines text)), mark.start < mark.stop :=
    fun mark member => marks_wide (lines text) mark (List.mem_mergeSort.mp member)
  have run := Undoable.foldl_mark (widestFirst (marks (lines text))) [] ⟨lines text, []⟩
    (.start (lines text)) (.start (lines text)) wide
  refine ⟨run.undone, fun index => ?_⟩
  have recorded := run.recorded index
  rw [List.nil_append, touching, widestFirst_filter] at recorded
  exact recorded

end PlainMath.Arrow
