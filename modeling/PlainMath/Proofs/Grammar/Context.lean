import PlainMath.Proofs.Grammar.Recursion
import PlainMath.Tree.Equality

/-! What the rules hand on besides the place in the input. Whatever is opened inside a rule, the
closer that is awaited behind it is the one that was awaited in front of it. Behind a cluster a term
is expected if its last atom is an operator that asks for one, and not otherwise: looking for a
further atom leaves the cursor as it is, even where the dots of a range are read and given back. -/
namespace PlainMath

/-- The atoms that a cluster is made of; a single one stands for itself. -/
def Tree.atoms : Tree → List Tree
  | .cluster elements => elements
  | tree => [tree]

namespace Grammar

theorem needsTerm_iff {tree : Tree} : needsTerm tree = true ↔
    ∃ symbol, tree = .operator symbol ∧ Glyph.isTrailing symbol = false := by
  cases tree <;> simp [needsTerm]

theorem expectTerm_collect_atoms (brackets : Reader) (cursor : Cursor) :
    ((atoms brackets).collect cursor).2.expectTerm =
      (((atoms brackets).collect cursor).1.getLast?.map needsTerm).getD cursor.expectTerm := by
  refine (atoms brackets).collect_induct (P := fun cursor found => found.2.expectTerm =
    (found.1.getLast?.map needsTerm).getD cursor.expectTerm) ?_ ?_ ?_ cursor
  · intro cursor after atom more step ih
    obtain ⟨next, _, _, rfl⟩ := atomStep_take step
    rw [ih, List.getLast?_cons]
    cases more.1.getLast? <;> rfl
  · intro cursor after more step _
    exact absurd step atomStep_not_skip
  · intro cursor last step
    rw [(atomStep_stop step).1]
    rfl

theorem atoms_of_cluster? {depth : Nat} {cursor after : Cursor} {tree : Tree}
    (found : cluster? (brackets depth) cursor = some (tree, after)) :
    tree.atoms = ((atoms (brackets depth)).collect cursor).1 := by
  -- no atom is a cluster, so that the atoms can be told from the tree
  have single : ∀ atom ∈ ((atoms (brackets depth)).collect cursor).1, atom.elements? = none := by
    refine Repetition.forall_mem_collect ?_ cursor
    intro cursor atom after step
    obtain ⟨next, read, _⟩ := atomStep_take step
    exact elements?_of_atom? read
  rcases Tree.ofCluster?_eq_some (cluster?_eq_some found).1 with only | ⟨_, rfl⟩
  · have atom := single tree (by simp [only])
    rw [only]
    cases tree with
    | cluster elements => cases atom
    | _ => rfl
  · rfl

theorem expectTerm_of_cluster? {depth : Nat} {cursor after : Cursor} {tree : Tree}
    (found : cluster? (brackets depth) cursor = some (tree, after)) :
    ∃ last, tree.atoms.getLast? = some last ∧ after.expectTerm = needsTerm last := by
  obtain ⟨whole, rfl⟩ := cluster?_eq_some found
  rw [atoms_of_cluster? found, expectTerm_collect_atoms]
  cases read : ((atoms (brackets depth)).collect cursor).1.getLast? with
  | none =>
    rw [List.getLast?_eq_none_iff.mp read] at whole
    cases whole
  | some last => exact ⟨last, rfl, rfl⟩

/-- The rules keep to the context. At every cursor each of them, whether it comes back with a result
or not, leaves the closer that was awaited. A cell is read by the rule for rows, and the rule for
brackets has no result only where nothing is opened. A cluster leaves a term to be expected exactly
if the last of its atoms is an operator that is not written behind its operand. -/
theorem rules_keep_context (cursor : Cursor) :
    cursor.grid.2.closer = cursor.closer ∧ cursor.gridRow.2.closer = cursor.closer ∧
    cursor.row.2.closer = cursor.closer ∧
    ((atoms cursor.brackets).collect cursor).2.closer = cursor.closer ∧
    (cursor.bracketed? = none → cursor.open? = none) ∧
    (∀ tree after, cursor.bracketed? = some (tree, after) → after.closer = cursor.closer) ∧
    ∀ tree after, cursor.cluster? = some (tree, after) →
      after.closer = cursor.closer ∧
      tree.atoms = ((atoms cursor.brackets).collect cursor).1 ∧
      ∃ last, tree.atoms.getLast? = some last ∧ (after.expectTerm = true ↔
        ∃ symbol, last = .operator symbol ∧ Glyph.isTrailing symbol = false) := by
  have forward : cursor.brackets.Forward := brackets_forward cursor.rest.length
  refine ⟨((gridRows_forward forward).collect cursor).closer,
    ((rowCells_forward forward).collect cursor).closer,
    ((rowElements_forward forward).collect cursor).closer,
    ((atoms_forward forward).collect cursor).closer, (progress cursor).noBracket,
    fun tree after found => (forward found).closer, ?_⟩
  intro tree after found
  obtain ⟨last, isLast, flag⟩ := expectTerm_of_cluster? found
  refine ⟨((progress cursor).cluster tree after found).closer, atoms_of_cluster? found, last,
    isLast, ?_⟩
  rw [flag]
  exact needsTerm_iff

theorem rules_keep_context_foreign :
    ((⟨"|:a:||(b]+]".toList, true, "]"⟩ : Cursor).cluster? =
        some (.cluster [.bracketed "&mid;" "&par;" (some (.identifier "a")),
          .bracketed "(" "]" (some (.identifier "b")), .operator "+"], ⟨"]".toList, true, "]"⟩) ∧
      (⟨"]".toList, true, "]"⟩ : Cursor).closer = "]" ∧
      ∃ symbol, Tree.operator "+" = .operator symbol ∧ Glyph.isTrailing symbol = false) ∧
    ((⟨"(a[b".toList, true, "]"⟩ : Cursor).bracketed?.map Prod.snd = some ⟨[], false, "]"⟩ ∧
      (⟨[], false, "]"⟩ : Cursor).closer = "]") ∧
    (⟨"a]".toList, true, "]"⟩ : Cursor).bracketed? = none ∧
      (⟨"a]".toList, true, "]"⟩ : Cursor).open? = none := by
  refine ⟨?_, ?_, ?_⟩
  · have found : (⟨"|:a:||(b]+]".toList, true, "]"⟩ : Cursor).cluster? =
        some (.cluster [.bracketed "&mid;" "&par;" (some (.identifier "a")),
          .bracketed "(" "]" (some (.identifier "b")), .operator "+"],
            ⟨"]".toList, true, "]"⟩) := by decide +kernel
    obtain ⟨closer, _, last, isLast, flag⟩ := (rules_keep_context _).2.2.2.2.2.2 _ _ found
    cases isLast
    exact ⟨found, closer, flag.mp rfl⟩
  · have read : (⟨"(a[b".toList, true, "]"⟩ : Cursor).bracketed?.map Prod.snd =
        some ⟨[], false, "]"⟩ := by decide +kernel
    obtain ⟨⟨tree, after⟩, found, rfl⟩ := Option.map_eq_some_iff.mp read
    exact ⟨read, (rules_keep_context _).2.2.2.2.2.1 tree _ found⟩
  · have unread : (⟨"a]".toList, true, "]"⟩ : Cursor).bracketed? = none := by decide +kernel
    exact ⟨unread, (rules_keep_context _).2.2.2.2.1 unread⟩

end Grammar
end PlainMath
