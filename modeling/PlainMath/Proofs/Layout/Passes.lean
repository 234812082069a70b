import PlainMath.Proofs.Grammar.Parsed
import PlainMath.Proofs.Layout.Folding

/-! What the passes leave intact, from the source on: a property of single nodes that
the grammar gives to all it reads, and that holds of everything the folds put together,
holds of all nodes of a tree when the passes have gone over it. -/
namespace PlainMath.Layout
open PlainMath.Tree

variable {L : Tree → Prop} (law : Foldable L)
include law

theorem visit_cluster {pass : Pass} (other : pass ≠ .invisibleProduct) {elements : List Tree}
    (nonempty : elements ≠ []) (all : ∀ element ∈ elements, Built L element) :
    ∃ folded, pass.visit (.cluster elements) = .cluster folded ∧ folded ≠ [] ∧
      ∀ element ∈ folded, Built L element := by
  obtain ⟨first, rest, rfl⟩ := List.exists_cons_of_ne_nil nonempty
  obtain ⟨built, others⟩ := List.forall_mem_cons.mp all
  cases pass with
  | invisibleProduct => exact absurd rfl other
  | subscripts =>
    have keeps := subscriptRule_keeps law
    exact ⟨_, rfl, implicitSubscripts_ne_nil (fold_ne_nil keeps nonempty),
      all_implicitSubscripts law (all_fold keeps all)⟩
  | exponents =>
    have keeps := exponentRule_keeps law
    exact ⟨_, rfl, fold_ne_nil keeps nonempty, all_fold keeps all⟩
  | ranges => exact ⟨_, rfl, foldRanges_ne_nil first rest, all_foldRanges law built others⟩
  | roots => exact ⟨_, rfl, foldRoots_ne_nil nonempty, all_foldRoots law all⟩
  | fractions => exact ⟨_, rfl, foldFraction_ne_nil nonempty, all_foldFraction law all⟩
  | operatorMeaning =>
    cases first with
    | operator symbol =>
      refine ⟨_, rfl, by simp, List.forall_mem_cons.mpr ⟨?_, others⟩⟩
      split
      · exact .leaf law.logicalNot rfl
      · exact built
    | _ => exact ⟨_, rfl, nonempty, all⟩
  | operatorSuperscripts =>
    exact ⟨_, rfl, foldMarks_ne_nil first 0 rest, all_foldMarks law built others 0⟩
  | braces => exact ⟨_, rfl, foldBraces_ne_nil nonempty, all_foldBraces law all⟩

theorem visit_row (pass : Pass) {elements : List Tree} (nonempty : elements ≠ [])
    (all : ∀ element ∈ elements, Built L element) :
    ∃ folded, pass.visit (.row elements) = .row folded ∧ folded ≠ [] ∧
      ∀ element ∈ folded, Built L element := by
  cases pass with
  | roots => exact ⟨_, rfl, foldRoots_ne_nil nonempty, all_foldRoots law all⟩
  | fractions => exact ⟨_, rfl, foldFraction_ne_nil nonempty, all_foldFraction law all⟩
  | braces => exact ⟨_, rfl, foldBraces_ne_nil nonempty, all_foldBraces law all⟩
  | _ => exact ⟨_, rfl, nonempty, all⟩

theorem built_collapse_visit {pass : Pass} (other : pass ≠ .invisibleProduct) {tree : Tree}
    (built : Built L tree) : Built L (pass.visit tree).collapse := by
  match tree with
  | .cluster [] => cases pass <;> exact built
  | .cluster (first :: rest) =>
    obtain ⟨folded, visited, nonempty, all⟩ :=
      visit_cluster law other (List.cons_ne_nil first rest) built.part
    rw [visited]
    exact built_ofCluster? law all _ (ofCluster?_eq_collapse nonempty)
  | .row [] => cases pass <;> exact built
  | .row (first :: rest) =>
    obtain ⟨folded, visited, nonempty, all⟩ :=
      visit_row law pass (List.cons_ne_nil first rest) built.part
    rw [visited]
    exact built_ofRow? law all _ (ofRow?_eq_collapse nonempty)
  | .operator symbol =>
    cases pass with
    | operatorMeaning => exact .leaf (law.leftover built.here) rfl
    | _ => exact built
  | .grid _ | .bracketed .. | .identifier _ | .text _ | .number _ | .fraction .. | .scripted ..
  | .root .. | .limits .. | .stackedLimits .. | .brace .. => cases pass <;> exact built

omit law in
theorem apply_emptyRow (pass : Pass) : pass.apply .emptyRow = .emptyRow := by
  rw [Pass.apply_eq]
  cases pass <;> rfl

omit law in
theorem apply_emptyGrid (pass : Pass) : pass.apply .emptyGrid = .emptyGrid := by
  rw [Pass.apply_eq]
  cases pass <;> rfl

omit law in
theorem built_apply {K : Tree → Prop} {pass : Pass}
    (map : ∀ {f tree}, L tree → L (tree.mapChildren f))
    (visited : ∀ {tree}, Built K tree → L (pass.visit tree).collapse ∧
      (∀ part ∈ (pass.visit tree).collapse.parts, Built K part) ∧
      ∀ slot ∈ (pass.visit tree).collapse.slots, slot ≠ emptyRow → Built K slot)
    {tree : Tree} (built : Built K tree) : Built L (pass.apply tree) := by
  induction tree using pass.induct with
  | step tree ih =>
    obtain ⟨holds, parts, slots⟩ := visited built
    rw [Pass.apply_eq]
    refine .node (map holds) ?_ ?_
    · rw [parts_mapChildren]
      intro part member
      obtain ⟨before, place, rfl⟩ := List.mem_map.mp member
      exact ih before (mem_children.mpr (.inl place)) (parts before place)
    · rw [slots_mapChildren]
      intro slot member there
      obtain ⟨before, place, rfl⟩ := List.mem_map.mp member
      have there : before ≠ emptyRow := by
        rintro rfl
        exact there (apply_emptyRow pass)
      exact ih before (mem_children.mpr (.inr place)) (slots before place there)

omit law in
/-- The property as it holds before the passes: not everything in a cluster is an invisible
product. -/
def Raw (L : Tree → Prop) (tree : Tree) : Prop :=
  L tree ∧ ∀ elements, tree = .cluster elements →
    ∃ element ∈ elements, element.isOperator Glyph.invisibleProduct = false

theorem built_invisibleProduct {tree : Tree} (built : Built (Raw L) tree) :
    Built L (Pass.invisibleProduct.apply tree) := by
  refine built_apply law.map ?_ built
  intro tree built
  have opened {node : Tree} (built : Built (Raw L) node) :
      L node ∧ (∀ part ∈ node.parts, Built (Raw L) part) ∧
        ∀ slot ∈ node.slots, slot ≠ emptyRow → Built (Raw L) slot :=
    ⟨built.here.1, built.part, built.slot⟩
  match tree with
  | .cluster elements =>
    obtain ⟨element, member, visible⟩ := built.here.2 elements rfl
    have nonempty : elements.filter (!·.isOperator Glyph.invisibleProduct) ≠ [] :=
      List.ne_nil_of_mem (List.mem_filter.mpr ⟨member, by simp [visible]⟩)
    have all : ∀ element ∈ elements.filter (!·.isOperator Glyph.invisibleProduct),
        Built (Raw L) element :=
      fun element member => built.part element (List.mem_filter.mp member).1
    rcases ofCluster?_eq_some (ofCluster?_eq_collapse nonempty) with single | ⟨several, same⟩
    · exact opened (all _ (single ▸ List.mem_singleton_self _))
    · have visited : (Pass.invisibleProduct.visit (.cluster elements)).collapse =
          .cluster (elements.filter (!·.isOperator Glyph.invisibleProduct)) := same
      rw [visited]
      exact ⟨law.cluster several, all, by simp [slots]⟩
  | .row [only] => exact opened (built.part only (List.mem_singleton_self only))
  | .row [] | .row (_ :: _ :: _) | .operator _ | .grid _ | .bracketed .. | .identifier _ | .text _
  | .number _ | .fraction .. | .scripted .. | .root .. | .limits .. | .stackedLimits ..
  | .brace .. => exact opened built

theorem built_foldl_apply {passes : List Pass} (others : Pass.invisibleProduct ∉ passes)
    {tree : Tree} (built : Built L tree) :
    Built L (passes.foldl (fun folded pass => pass.apply folded) tree) := by
  induction passes generalizing tree with
  | nil => exact built
  | cons pass passes ih =>
    rw [List.mem_cons, not_or] at others
    refine ih others.2 (built_apply law.map ?_ built)
    intro tree built
    have visited := built_collapse_visit law (Ne.symm others.1) built
    exact ⟨visited.here, visited.part, visited.slot⟩

theorem built_layout {tree : Tree} (built : Built (Raw L) tree) : Built L tree.layout := by
  have first := built_invisibleProduct law built
  have others : Pass.invisibleProduct ∉ Pass.all.tail := by decide
  exact built_foldl_apply law others first

omit law in
theorem layout_emptyGrid : emptyGrid.layout = emptyGrid := by
  simp only [layout, Pass.all, List.foldl_cons, List.foldl_nil, apply_emptyGrid]

omit law in
structure Readable (L : Tree → Prop) : Prop where
  leaf : ∀ reader ∈ Lexeme.readers, ∀ {input leaf length},
    reader input = some (leaf, length) → L leaf
  grid : ∀ {rows : List (List Tree)}, rows ≠ [] → (∀ only, rows ≠ [[only]]) →
    (∀ cells ∈ rows, cells ≠ []) → L (.grid rows)
  bracketed : ∀ {bracket right contents}, bracket ∈ Bracket.all →
    (right = "" ∨ ∃ closer ∈ Bracket.closers, right = closer.2) →
    L (.bracketed bracket.glyph right contents)

theorem builds_raw (read : Readable L) : Grammar.Builds (Built (Raw L)) where
  leaf reader listed {input leaf length} found := by
    have holds := read.leaf reader listed found
    obtain ⟨text, own, _⟩ := Lexeme.leafText?_of_reader listed found
    cases leaf with
    | identifier _ | operator _ | text _ | number _ => exact .leaf ⟨holds, nofun⟩ rfl
    | _ => cases own
  cluster several visible _ all := by
    refine .node ⟨law.cluster several, ?_⟩ all (by simp [slots])
    rintro elements same
    cases same
    exact visible
  row several all := .node ⟨law.row several, by simp⟩ all (by simp [slots])
  grid nonempty single all := by
    refine .node ⟨read.grid nonempty single fun cells member => (all cells member).1, by simp⟩ ?_
      (by simp [slots])
    intro part member
    obtain ⟨cells, row, place⟩ := List.mem_flatten.mp member
    exact (all cells row).2 part place
  bracketed opened closed inside := by
    refine .node ⟨read.bracketed opened closed, by simp⟩ ?_ (by simp [slots])
    exact fun part member => (inside part (Option.mem_toList.mp member)).1

theorem built_layout_parse (read : Readable L) (source : String) :
    (parse source).layout = .emptyGrid ∨ Built L (parse source).layout := by
  rcases parse_builds (builds_raw law read) source with empty | built
  · exact .inl (empty ▸ layout_emptyGrid)
  · exact .inr (built_layout law built)

end PlainMath.Layout
