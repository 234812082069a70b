import PlainMath.Cursor.Basic

/-! Repetition of a step over the input. A step gives a value, steps over
something that has no value, or stops; only the last may leave the input as it
is, so that every repetition comes to an end. -/
namespace PlainMath

inductive Step (α : Type) where
  | take (value : α) (after : Cursor)
  | skip (after : Cursor)
  | stop (last : Cursor)

/-- A step that goes on has less to read, one that stops has no more than before. -/
def Step.Within (cursor : Cursor) {α : Type} : Step α → Prop
  | .take _ after => after.rest.length < cursor.rest.length
  | .skip after => after.rest.length < cursor.rest.length
  | .stop last => last.rest.length ≤ cursor.rest.length

structure Repetition (α : Type) where
  step : Cursor → Step α
  within : ∀ cursor, (step cursor).Within cursor

namespace Repetition
variable {α : Type} (repetition : Repetition α)

theorem take_shorter {cursor after : Cursor} {value : α}
    (taken : repetition.step cursor = .take value after) :
    after.rest.length < cursor.rest.length := by
  simpa [taken, Step.Within] using repetition.within cursor

theorem skip_shorter {cursor after : Cursor} (skipped : repetition.step cursor = .skip after) :
    after.rest.length < cursor.rest.length := by
  simpa [skipped, Step.Within] using repetition.within cursor

theorem stop_le {cursor last : Cursor} (stopped : repetition.step cursor = .stop last) :
    last.rest.length ≤ cursor.rest.length := by
  simpa [stopped, Step.Within] using repetition.within cursor

def collect (cursor : Cursor) : List α × Cursor :=
  match found : repetition.step cursor with
  | .take value after =>
    have := repetition.take_shorter found
    let more := collect after
    (value :: more.1, more.2)
  | .skip after =>
    have := repetition.skip_shorter found
    collect after
  | .stop last => ([], last)
termination_by cursor.rest.length

theorem collect_take {cursor after : Cursor} {value : α}
    (taken : repetition.step cursor = .take value after) :
    repetition.collect cursor =
      (value :: (repetition.collect after).1, (repetition.collect after).2) := by
  rw [collect]
  split <;> simp_all

theorem collect_skip {cursor after : Cursor} (skipped : repetition.step cursor = .skip after) :
    repetition.collect cursor = repetition.collect after := by
  rw [collect]
  split <;> simp_all

theorem collect_stop {cursor last : Cursor} (stopped : repetition.step cursor = .stop last) :
    repetition.collect cursor = ([], last) := by
  rw [collect]
  split <;> simp_all

/-- A relation between the start of a repetition and its outcome holds when it
holds where the repetition stops and is kept by each step in front of it. -/
theorem collect_induct {P : Cursor → List α × Cursor → Prop}
    (take : ∀ {cursor after value} {more : List α × Cursor},
      repetition.step cursor = .take value after → P after more →
      P cursor (value :: more.1, more.2))
    (skip : ∀ {cursor after} {more : List α × Cursor},
      repetition.step cursor = .skip after → P after more → P cursor more)
    (stop : ∀ {cursor last}, repetition.step cursor = .stop last → P cursor ([], last))
    (cursor : Cursor) : P cursor (repetition.collect cursor) := by
  fun_induction collect repetition cursor with
  | case1 cursor value after taken _ more ih => exact take taken ih
  | case2 cursor after skipped _ ih => exact skip skipped ih
  | case3 cursor last stopped => exact stop stopped

theorem collect_within (cursor : Cursor) :
    (repetition.collect cursor).2.rest.length ≤ cursor.rest.length ∧
      ((repetition.collect cursor).1 ≠ [] →
        (repetition.collect cursor).2.rest.length < cursor.rest.length) := by
  refine repetition.collect_induct
    (P := fun cursor found => found.2.rest.length ≤ cursor.rest.length ∧
      (found.1 ≠ [] → found.2.rest.length < cursor.rest.length)) ?_ ?_ ?_ cursor
  · intro cursor after value more taken ih
    have := repetition.take_shorter taken
    exact ⟨by have := ih.1; simp only; omega, fun _ => by have := ih.1; simp only; omega⟩
  · intro cursor after more skipped ih
    have := repetition.skip_shorter skipped
    exact ⟨by have := ih.1; omega, fun _ => by have := ih.1; omega⟩
  · intro cursor last stopped
    exact ⟨repetition.stop_le stopped, fun empty => absurd rfl empty⟩

end Repetition
end PlainMath
