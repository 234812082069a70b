import PlainMath.Proofs.Grammar.Steps

/-! Every rule of the grammar moves forward in one and the same input, and leaves
the cursor in the bracket in which it found it. -/
namespace PlainMath

structure Cursor.Leads (before after : Cursor) : Prop where
  rest : after.rest <:+ before.rest
  closer : after.closer = before.closer

namespace Cursor

def Steps (before after : Cursor) : Prop :=
  ∃ count, 0 < count ∧ count ≤ before.rest.length ∧ after = before.advance count

theorem Leads.refl (cursor : Cursor) : cursor.Leads cursor := ⟨List.suffix_refl _, rfl⟩

theorem Leads.trans {first second third : Cursor} (near : first.Leads second)
    (far : second.Leads third) : first.Leads third :=
  ⟨far.rest.trans near.rest, far.closer.trans near.closer⟩

theorem leads_advance (cursor : Cursor) (count : Nat) : cursor.Leads (cursor.advance count) :=
  ⟨List.drop_suffix _ _, rfl⟩

theorem Leads.expecting {before after : Cursor} (leads : before.Leads after) (term : Bool) :
    before.Leads (after.expecting term) := ⟨leads.rest, leads.closer⟩

theorem eat?_eq_some {cursor after : Cursor} {text : String} (eaten : cursor.eat? text = some after) :
    after = cursor.advance text.toList.length ∧ cursor.rest = text.toList ++ after.rest := by
  unfold eat? at eaten
  split at eaten
  · rename_i starts
    cases eaten
    obtain ⟨behind, whole⟩ := (startsWith_iff.mp starts).2
    exact ⟨rfl, by rw [rest_advance, ← whole, List.drop_left]⟩
  · cases eaten

theorem Steps.leads {before after : Cursor} (steps : before.Steps after) : before.Leads after := by
  obtain ⟨count, _, _, rfl⟩ := steps
  exact leads_advance before count

theorem eat?_steps {cursor after : Cursor} {text : String} (eaten : cursor.eat? text = some after) :
    cursor.Steps after := by
  obtain ⟨moved, spelled⟩ := eat?_eq_some eaten
  have size := congrArg List.length spelled
  have less := eat?_shorter eaten
  rw [List.length_append] at size
  exact ⟨text.toList.length, by omega, by omega, moved⟩

theorem open?_steps {cursor after : Cursor} {bracket : Bracket}
    (opened : cursor.open? = some (bracket, after)) : cursor.Steps after := by
  obtain ⟨candidate, _, found⟩ := List.exists_of_findSome?_eq_some opened
  split at found
  · obtain ⟨eaten, ate, same⟩ := Option.map_eq_some_iff.mp found
    cases same
    exact eat?_steps ate
  · cases found

theorem close?_steps {cursor after : Cursor} {glyph : String}
    (closed : cursor.close? = some (glyph, after)) : cursor.Steps after := by
  obtain ⟨candidate, _, found⟩ := List.exists_of_findSome?_eq_some closed
  obtain ⟨eaten, ate, same⟩ := Option.map_eq_some_iff.mp found
  cases same
  exact eat?_steps ate

end Cursor

structure Repetition.Forward {α : Type} (repetition : Repetition α) : Prop where
  take : ∀ {cursor value after}, repetition.step cursor = .take value after → cursor.Leads after
  skip : ∀ {cursor after}, repetition.step cursor = .skip after → cursor.Leads after
  stop : ∀ {cursor last}, repetition.step cursor = .stop last → cursor.Leads last

theorem Repetition.Forward.collect {α : Type} {repetition : Repetition α}
    (forward : repetition.Forward) (cursor : Cursor) :
    cursor.Leads (repetition.collect cursor).2 := by
  refine repetition.collect_induct (P := fun cursor found => cursor.Leads found.2) ?_ ?_ ?_ cursor
  · intro cursor after value more step ih
    exact (forward.take step).trans ih
  · intro cursor after more step ih
    exact (forward.skip step).trans ih
  · intro cursor last step
    exact forward.stop step

namespace Grammar
open Cursor

/-- What is read is a stretch of the input, and the bracket around it stays open. -/
def Reader.Forward (brackets : Reader) : Prop :=
  ∀ {cursor tree after}, brackets.run cursor = some (tree, after) → cursor.Leads after

variable {brackets : Reader} (forward : brackets.Forward)

theorem leaf?_leads {reader : List Char → Option (Tree × Nat)} {cursor after : Cursor} {tree : Tree}
    (found : leaf? reader cursor = some (tree, after)) : cursor.Leads after := by
  obtain ⟨length, _, rfl⟩ := leaf?_eq_some found
  exact leads_advance cursor length

theorem closing_leads (cursor : Cursor) : cursor.Leads (closing cursor).2 := by
  unfold closing
  cases closed : cursor.close? with
  | none => exact .refl cursor
  | some found => exact (close?_steps closed).leads

include forward

theorem atom?_leads {cursor after : Cursor} {tree : Tree}
    (found : atom? brackets cursor = some (tree, after)) : cursor.Leads after := by
  rcases atom?_eq_some found with bracket | ⟨reader, _, leaf⟩
  · exact forward bracket
  · exact leaf?_leads leaf

theorem atoms_forward : (atoms brackets).Forward where
  take step := by
    obtain ⟨next, read, _, rfl⟩ := atomStep_take step
    exact (atom?_leads forward read).expecting _
  skip step := absurd step atomStep_not_skip
  stop step := by
    rw [(atomStep_stop step).1]
    exact .refl _

theorem rowElements_forward : (rowElements brackets).Forward where
  take step := by
    rcases rowStep_take step with ⟨next, dots, _, rfl⟩ | cluster
    · exact (leaf?_leads (range?_eq_some dots)).expecting true
    · rw [(cluster?_eq_some cluster).2]
      exact (atoms_forward forward).collect _
  skip step := by
    rw [(rowStep_skip step).1]
    exact leads_advance _ 1
  stop step := by
    rw [(rowStep_stop step).1]
    exact .refl _

theorem rowCells_forward : (rowCells brackets).Forward where
  take step := by
    rw [(cellStep_take step).2]
    exact (rowElements_forward forward).collect _
  skip step := by
    obtain ⟨next, eaten, rfl⟩ := cellStep_skip step
    have leads := (eat?_steps eaten).leads
    exact ⟨(List.dropWhile_suffix _).trans leads.rest, leads.closer⟩
  stop step := by
    rcases cellStep_stop step with ⟨_, rfl⟩ | ⟨_, _, rfl⟩
    · exact .refl _
    · exact (rowElements_forward forward).collect _

theorem gridRows_forward : (gridRows brackets).Forward where
  take step := by
    rw [(gridStep_take step).2]
    exact (rowCells_forward forward).collect _
  skip step := by
    obtain ⟨next, eaten, rfl⟩ := gridStep_skip step
    exact (eat?_steps eaten).leads.expecting true
  stop step := by
    rcases gridStep_stop step with ⟨_, rfl⟩ | ⟨_, _, rfl⟩
    · exact .refl _
    · exact (rowCells_forward forward).collect _

theorem bracketed?_leads {cursor after : Cursor} {tree : Tree}
    (found : bracketed? brackets cursor = some (tree, after)) : cursor.Leads after := by
  obtain ⟨bracket, inside, opened, _, rfl⟩ := bracketed?_eq_some found
  have first := (open?_steps opened).leads
  have second := (gridRows_forward forward).collect
    ((inside.awaiting bracket.closer).expecting true)
  have third := closing_leads
    (grid brackets ((inside.awaiting bracket.closer).expecting true)).2
  -- the inner grid awaits another closer, so only what is left is followed through it
  exact ⟨(third.rest.trans second.rest).trans first.rest, rfl⟩

omit forward in
theorem brackets_forward (depth : Nat) : (Grammar.brackets depth).Forward := by
  induction depth with
  | zero =>
    intro cursor tree after found
    cases found
  | succ depth ih =>
    intro cursor tree after found
    exact bracketed?_leads ih found

end Grammar
end PlainMath
