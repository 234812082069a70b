import PlainMath.Proofs.Layout.Passes

/-! The shape of a tree that has been read and laid out. Nothing stands in it that
could have stood for itself: no row, cluster or grid of a single element. Nothing is
empty but the slots, which an empty row fills, and a source in which nothing was read,
whose tree is the empty grid. -/
namespace PlainMath.Tree

def Sized : Tree → Prop
  | .grid rows => (∀ cells ∈ rows, cells ≠ []) ∧ rows.map List.length ≠ [1]
  | .row elements => elements.length ≠ 1
  | .cluster elements => 2 ≤ elements.length
  | .bracketed left _ _ => left ≠ ""
  | .scripted _ subscript superscript => subscript.isSome ∨ superscript.isSome
  | _ => True

/-- A node of the right size, with empty rows only in its slots and no empty grid below it. -/
structure WellShaped (tree : Tree) : Prop where
  sized : tree.Sized
  parts_ne : ∀ part ∈ tree.parts, part ≠ emptyRow
  children_ne : ∀ child ∈ tree.children, child ≠ emptyGrid

structure Filled (tree : Tree) : Prop where
  sized : tree.Sized
  ne_emptyRow : tree ≠ emptyRow
  ne_emptyGrid : tree ≠ emptyGrid

theorem sized_mapChildren {f : Tree → Tree} {tree : Tree} (sized : tree.Sized) :
    (tree.mapChildren f).Sized := by
  cases tree with
  | grid rows => simpa [Sized, mapChildren, Function.comp_def] using sized
  | row elements => simpa [Sized, mapChildren] using sized
  | cluster elements => simpa [Sized, mapChildren] using sized
  | scripted base subscript superscript => simpa [Sized, mapChildren] using sized
  | _ => exact sized

theorem filled_mapChildren {f : Tree → Tree} {tree : Tree} (filled : tree.Filled) :
    (tree.mapChildren f).Filled where
  sized := sized_mapChildren filled.sized
  ne_emptyRow empty := by
    refine filled.ne_emptyRow ?_
    cases tree with
    | row elements => simpa [emptyRow, mapChildren] using empty
    | _ => cases empty
  ne_emptyGrid empty := by
    refine filled.ne_emptyGrid ?_
    cases tree with
    | grid rows => simpa [emptyGrid, mapChildren] using empty
    | _ => cases empty

theorem filled_row {elements : List Tree} (several : 2 ≤ elements.length) :
    (Tree.row elements).Filled where
  sized := by
    simp only [Sized]
    omega
  ne_emptyRow empty := by
    cases empty
    contradiction
  ne_emptyGrid := nofun

theorem filled_foldable : Layout.Foldable Filled where
  map := filled_mapChildren
  blank := ⟨trivial, nofun, nofun⟩
  superscriptSign := ⟨trivial, nofun, nofun⟩
  logicalNot := ⟨trivial, nofun, nofun⟩
  leftover _ := ⟨trivial, nofun, nofun⟩
  primes _ := ⟨trivial, nofun, nofun⟩
  row := filled_row
  cluster several := ⟨several, nofun, nofun⟩
  fraction := ⟨trivial, nofun, nofun⟩
  scripted there := ⟨there, nofun, nofun⟩
  root := ⟨trivial, nofun, nofun⟩
  limits _ := ⟨trivial, nofun, nofun⟩
  stackedLimits := ⟨trivial, nofun, nofun⟩
  brace := ⟨trivial, nofun, nofun⟩
  sideBySide filled cells member several := by
    have nonempty := List.length_pos_iff.mpr (filled.sized.1 cells member)
    exact filled_row (by omega)

theorem filled_readable : Layout.Readable Filled where
  leaf reader listed {input leaf length} found := by
    obtain ⟨text, own, _⟩ := Lexeme.leafText?_of_reader listed found
    cases leaf with
    | identifier _ | operator _ | text _ | number _ => exact ⟨trivial, nofun, nofun⟩
    | _ => cases own
  grid {rows} nonempty single cells := by
    refine ⟨⟨cells, ?_⟩, nofun, ?_⟩
    · intro alone
      match rows with
      | [[only]] => exact single only rfl
    · rintro empty
      cases empty
      exact nonempty rfl
  bracketed {bracket right contents} opened closed := by
    have marked : ∀ bracket ∈ Bracket.all, bracket.glyph ≠ "" := by decide
    exact ⟨marked bracket opened, nofun, nofun⟩

theorem wellShaped_emptyRow : emptyRow.WellShaped :=
  ⟨by simp [emptyRow, Sized], by simp [emptyRow, parts, children], by simp [emptyRow, children]⟩

theorem wellShaped_emptyGrid : emptyGrid.WellShaped :=
  ⟨by simp [emptyGrid, Sized], by simp [emptyGrid, parts, children], by simp [emptyGrid, children]⟩

theorem Built.wellShaped {tree : Tree} (built : Built Filled tree) : tree.WellShaped where
  sized := built.here.sized
  parts_ne part member := (built.part part member).here.ne_emptyRow
  children_ne child member := by
    rcases mem_children.mp member with part | slot
    · exact (built.part child part).here.ne_emptyGrid
    · by_cases nothing : child = emptyRow
      · rw [nothing]
        nofun
      · exact (built.slot child slot nothing).here.ne_emptyGrid

end PlainMath.Tree

namespace PlainMath
open PlainMath.Tree

theorem nodes_layout_wellShaped (source : String) :
    (parse source).layout ≠ emptyRow ∧ ∀ node ∈ (parse source).layout.nodes, node.WellShaped := by
  rcases Layout.built_layout_parse filled_foldable filled_readable source with empty | built
  · rw [empty, nodes_eq]
    refine ⟨nofun, ?_⟩
    simpa [emptyGrid, children] using wellShaped_emptyGrid
  · exact ⟨built.here.ne_emptyRow, built.forall_nodes wellShaped_emptyRow Built.wellShaped⟩

end PlainMath
