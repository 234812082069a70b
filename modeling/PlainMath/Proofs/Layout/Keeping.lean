import PlainMath.Proofs.Layout.Kinds

/-! What a pass keeps of the work of the passes before it: a property of the parts of all nodes
that the nodes which the pass makes have, and that no replacement takes from the others. -/
namespace PlainMath.Layout
open PlainMath.Tree

variable {P : Tree → Prop} {free : Tree → Bool} {pass : Pass} {tree : Tree}

def Below (P : Tree → Prop) (free : Tree → Bool) (tree : Tree) : Prop :=
  ∀ node ∈ tree.nodes, free node = false → ∀ child ∈ node.children, P child

def Sound (P : Tree → Prop) (free : Tree → Bool) (tree : Tree) : Prop := P tree ∧ Below P free tree

theorem below_iff : Below P free tree ↔ (free tree = false → ∀ child ∈ tree.children, P child) ∧
    ∀ child ∈ tree.children, Below P free child := by
  simp only [Below, nodes_eq tree, List.forall_mem_cons, List.mem_flatMap]
  grind

theorem below_of_children (all : ∀ child ∈ tree.children, Sound P free child) :
    Below P free tree :=
  below_iff.mpr ⟨fun _ child member => (all child member).1, fun child member => (all child member).2⟩

theorem Below.child (below : Below P free tree) (here : free tree = false) {child : Tree}
    (member : child ∈ tree.children) : Sound P free child :=
  ⟨(below_iff.mp below).1 here child member, (below_iff.mp below).2 child member⟩

theorem forall_nodes_iff : (∀ node ∈ tree.nodes, P node) ↔ Sound P (fun _ => false) tree := by
  induction tree using Tree.induct with
  | step tree ih =>
    rw [Sound, below_iff, nodes_eq, List.forall_mem_cons]
    simp only [List.mem_flatMap]
    grind [Sound]

theorem Sound.weaken (sound : Sound P (fun _ => false) tree) : Sound P free tree :=
  ⟨sound.1, fun node member _ => sound.2 node member rfl⟩

theorem forall_nodes_apply (Inv : Tree → Prop)
    (kept : ∀ {tree}, Inv tree → ∀ child ∈ (pass.visit tree).collapse.children, Inv child)
    (holds : ∀ {tree}, Inv tree → P ((pass.visit tree).collapse.mapChildren pass.apply))
    {tree : Tree} (start : Inv tree) : ∀ node ∈ (pass.apply tree).nodes, P node := by
  induction tree using pass.induct with
  | step tree ih =>
    rw [pass.apply_eq, nodes_eq, List.forall_mem_cons, children_mapChildren]
    refine ⟨holds start, fun node member => ?_⟩
    obtain ⟨part, place, member⟩ := List.mem_flatMap.mp member
    obtain ⟨child, before, rfl⟩ := List.mem_map.mp place
    exact ih child before (kept start child before) node member

theorem sound_ofRow? (rows : ∀ elements, P (.row elements)) {elements : List Tree}
    (all : ∀ element ∈ elements, Sound P free element) :
    ∀ tree ∈ ofRow? elements, Sound P free tree := by
  intro tree found
  rcases ofRow?_eq_some found with single | ⟨_, rfl⟩
  · exact all tree (by simp [single])
  · exact ⟨rows elements, below_of_children all⟩

theorem below_bound {target : Tree} {limits : Tree × Option Tree} (sound : Sound P free target)
    (lower : Sound P free limits.1) (upper : ∀ upper ∈ limits.2, Sound P free upper) :
    Below P free (bound target limits) := by
  refine below_of_children ?_
  unfold bound
  split
  · simpa [children] using ⟨lower, upper⟩
  · simpa [children] using ⟨sound, lower, upper⟩
  · simpa [children] using ⟨sound, lower, upper⟩
  · simpa [children] using ⟨sound, lower, upper⟩

theorem below_sideBySide {cells : List Tree} (all : ∀ cell ∈ cells, Sound P free cell) :
    Below P free (sideBySide cells) ∧
      ((∀ elements, P (.row elements)) → P (sideBySide cells)) := by
  unfold sideBySide
  split
  · rename_i only
    exact ⟨(all only (by simp)).2, fun _ => (all only (by simp)).1⟩
  · exact ⟨below_of_children all, fun rows => rows cells⟩

/-- The pass makes nothing that lacks the property, and takes it from no row, cluster or operator.
What it cannot answer for are the sides of fractions and the parts of braces, which may be left
out. -/
structure Stays (pass : Pass) (P : Tree → Prop) (free : Tree → Bool) : Prop where
  free_cases : ∀ {tree}, free tree = true → (∃ numerator denominator,
    tree = .fraction numerator denominator) ∨ ∃ side base comment, tree = .brace side base comment
  free_map : ∀ {f tree}, free (tree.mapChildren f) = free tree
  inner : ∀ {tree}, tree.elements? = none → tree.isOperand = true → P tree
  operator : pass = .operatorMeaning → ∀ symbol, P (.operator symbol)
  primes : pass = .operatorSuperscripts → ∀ count, P (primes count)
  row : pass = .ranges → ∀ elements, P (.row elements)
  fraction : pass = .fractions → ∀ numerator denominator, free (.fraction numerator denominator)
  brace : pass = .braces → (∀ elements, P (.row elements)) ∨
    ∀ side base comment, free (.brace side base comment)
  replaceRow : ∀ {front block behind made}, Makes pass block made →
    P (.row (front ++ block ++ behind)) → P (.row (front ++ made :: behind))
  replaceCluster : ∀ {front block behind made}, Makes pass block made →
    P (.cluster (front ++ block ++ behind)) → P (.cluster (front ++ made :: behind))
  meaning : pass = .operatorMeaning → ∀ {elements}, P (.cluster elements) →
    P (operatorMeaning (.cluster elements))
  parts : ∀ {tree}, (∀ child ∈ tree.children, Firm child) → P tree →
    P (tree.mapChildren pass.apply)

namespace Stays
variable (stays : Stays pass P free)
include stays

theorem not_free (tree : Tree) (fraction : ∀ numerator denominator,
    tree ≠ .fraction numerator denominator) (brace : ∀ side base comment,
    tree ≠ .brace side base comment) : free tree = false := by
  rw [Bool.eq_false_iff]
  intro found
  rcases stays.free_cases found with ⟨numerator, denominator, same⟩ | ⟨side, base, comment, same⟩
  · exact fraction numerator denominator same
  · exact brace side base comment same

theorem sound_inner (inner : tree.elements? = none) (operand : tree.isOperand = true)
    (below : Below P free tree) : Sound P free tree := ⟨stays.inner inner operand, below⟩

theorem sound_operator (meaning : pass = .operatorMeaning) (symbol : String) :
    Sound P free (.operator symbol) :=
  ⟨stays.operator meaning symbol, below_of_children (by simp [children])⟩

theorem sound_unwrap (sound : Sound P free tree) : Sound P free tree.unwrap := by
  unfold unwrap
  split
  · exact sound.2.child (stays.not_free _ (by simp) (by simp)) (by simp [children])
  · exact sound

theorem below_raise {base superscript : Tree} (below : Sound P free base)
    (script : Sound P free superscript) : Below P free (raise base superscript) := by
  refine below_of_children ?_
  unfold raise
  split
  · rename_i inner subscript
    have part {child : Tree} (member : child ∈ (scripted inner (some subscript) none).children) :
        Sound P free child := below.2.child (stays.not_free _ (by simp) (by simp)) member
    simpa [children] using ⟨part (by simp [children]), part (by simp [children]), script⟩
  · simpa [children] using ⟨below, script⟩

theorem sound_bounds (rows : ∀ elements, P (.row elements)) {contents : Option Tree}
    (inside : ∀ inner ∈ contents, Sound P free inner) :
    Sound P free (bounds contents).1 ∧ ∀ upper ∈ (bounds contents).2, Sound P free upper := by
  have empty : Sound P free emptyRow := ⟨rows [], below_of_children (by simp [emptyRow, children])⟩
  unfold bounds
  split
  · exact ⟨empty, by simp⟩
  · rename_i elements
    have whole : Sound P free (.row elements) := inside _ rfl
    have all : ∀ element ∈ elements, Sound P free element := fun element member =>
      whole.2.child (stays.not_free _ (by simp) (by simp)) member
    split
    · exact ⟨whole, by simp⟩
    · rename_i dots upper found
      have within : dots :: upper ⊆ elements := found ▸ (List.dropWhile_sublist _).subset
      refine ⟨?_, sound_ofRow? rows fun element member =>
        all element (within (List.mem_cons_of_mem _ member))⟩
      cases lower : ofRow? (elements.takeWhile (!·.isOperator Glyph.range)) with
      | none => exact empty
      | some tree =>
        exact sound_ofRow? rows
          (fun element member => all element ((List.takeWhile_sublist _).subset member)) tree lower
  · rename_i other _
    exact ⟨inside other rfl, by simp⟩

theorem below_side {elements : List Tree} (all : ∀ element ∈ elements, Sound P free element) :
    Below P free (side elements) := by
  unfold side
  cases whole : ofCluster? elements with
  | none => exact below_of_children (by simp [emptyRow, children])
  | some tree =>
    rcases ofCluster?_eq_some whole with single | ⟨_, rfl⟩
    · exact (stays.sound_unwrap (all tree (by simp [single]))).2
    · exact below_of_children all

theorem below_made {block : List Tree} {made : Tree} (makes : Makes pass block made)
    (all : ∀ element ∈ block, Sound P free element) : Below P free made := by
  have leaf {tree : Tree} (inner : tree.elements? = none) (operand : tree.isOperand = true)
      (childless : tree.children = []) : Sound P free tree :=
    stays.sound_inner inner operand (below_of_children (by simp [childless]))
  cases makes with
  | subscript script operand =>
    obtain ⟨base, _, script⟩ := by simpa using all
    exact below_of_children (by simpa [children] using ⟨base, stays.sound_unwrap script⟩)
  | blankBase script =>
    obtain ⟨_, script⟩ := by simpa using all
    exact below_of_children (by simpa [children] using ⟨leaf rfl rfl rfl, stays.sound_unwrap script⟩)
  | numbered symbol numeral =>
    exact below_of_children (by simpa [children] using ⟨leaf rfl rfl rfl, leaf rfl rfl rfl⟩)
  | exponent script operand =>
    obtain ⟨base, _, script⟩ := by simpa using all
    exact stays.below_raise base (stays.sound_unwrap script)
  | bound takes found =>
    obtain ⟨target, bracket⟩ := by simpa using all
    obtain ⟨right, rfl⟩ := rangeContents?_eq_some found
    have inside := stays.sound_bounds (stays.row rfl) fun inner member =>
      bracket.2.child (stays.not_free _ (by simp) (by simp))
        (by simpa [children] using member)
    exact below_bound target inside.1 inside.2
  | root radicand found =>
    obtain ⟨radical, radicand⟩ := by simpa using all
    refine below_of_children ?_
    unfold radical? at found
    split at found
    · split at found <;> cases found
      simpa [children] using stays.sound_unwrap radicand
    · split at found <;> cases found
      have index := radical.2.child (stays.not_free _ (by simp) (by simp)) List.mem_cons_self
      simpa [children] using ⟨stays.sound_unwrap radicand, index⟩
    · cases found
  | fraction found numerator denominator =>
    obtain ⟨before, behind⟩ := List.forall_mem_append.mp all
    have behind := (List.forall_mem_cons.mp behind).2
    have left_out := stays.fraction rfl
    refine below_iff.mpr ⟨fun here => ?_, ?_⟩
    · rw [left_out] at here
      cases here
    · simpa [children] using ⟨stays.below_side before, stays.below_side behind⟩
  | primes count operand =>
    have base := all _ List.mem_cons_self
    have script : (Layout.primes (count + 1)).children = [] := rfl
    exact stays.below_raise base ⟨stays.primes rfl _, below_of_children (by simp [script])⟩
  | mark symbol operand =>
    obtain ⟨base, mark⟩ := by simpa using all
    exact stays.below_raise base mark
  | @brace _ _ _ comment base signed rows =>
    obtain ⟨_, bracket⟩ := by simpa using all
    obtain ⟨left, right, rfl⟩ := twoRows?_eq_some rows
    have grid : Sound P free (.grid [comment, base]) :=
      bracket.2.child (stays.not_free _ (by simp) (by simp)) (by simp [children])
    have cell {cell : Tree} (member : cell ∈ comment ++ base) : Sound P free cell :=
      grid.2.child (stays.not_free _ (by simp) (by simp)) (by simpa [children] using member)
    have comment := below_sideBySide fun inner member => cell (List.mem_append_left base member)
    have base := below_sideBySide fun inner member => cell (List.mem_append_right _ member)
    refine below_iff.mpr ⟨fun here => ?_, by simpa [children] using ⟨base.1, comment.1⟩⟩
    rcases stays.brace rfl with rows | left_out
    · simpa [children] using ⟨base.2 rows, comment.2 rows⟩
    · rw [left_out] at here
      cases here

theorem folds {elements folded : List Tree} (folds : Folds pass elements folded)
    (all : ∀ element ∈ elements, Sound P free element) :
    (∀ element ∈ folded, Sound P free element) ∧ (P (.row elements) → P (.row folded)) ∧
      (P (.cluster elements) → P (.cluster folded)) := by
  induction folds with
  | refl => exact ⟨all, id, id⟩
  | tail _ replaces ih =>
    obtain ⟨all, row, cluster⟩ := ih
    cases replaces with
    | @make block made front behind makes =>
      simp only [List.forall_mem_append, List.forall_mem_cons] at all ⊢
      obtain ⟨inner, operand⟩ := inner_of_isMade makes.isMade
      exact ⟨⟨all.1.1, stays.sound_inner inner operand (stays.below_made makes all.1.2), all.2⟩,
        stays.replaceRow makes ∘ row, stays.replaceCluster makes ∘ cluster⟩

theorem collapse_visit (other : pass ≠ .invisibleProduct) (below : Below P free tree) :
    Below P free (pass.visit tree).collapse ∧ (P tree → P (pass.visit tree).collapse) := by
  -- a single element has the property on its own
  have collapsed (sequence : Tree) {elements : List Tree}
      (found : sequence.elements? = some elements)
      (all : ∀ element ∈ elements, Sound P free element) :
      Below P free sequence.collapse ∧ (P sequence → P sequence.collapse) := by
    rcases collapse_cases sequence with same | ⟨only, alone, single⟩
    · rw [same]
      refine ⟨below_of_children ?_, id⟩
      cases sequence with
      | row _ | cluster _ =>
        cases found
        exact all
      | _ => cases found
    · rw [alone] at found
      cases found
      have sound := all only List.mem_cons_self
      rw [single]
      exact ⟨sound.2, fun _ => sound.1⟩
  cases tree with
  | row elements =>
    have all : ∀ element ∈ elements, Sound P free element := fun element member =>
      below.child (stays.not_free _ (by simp) (by simp)) member
    obtain ⟨folded, visited, folds⟩ := folds_visit_row pass elements
    obtain ⟨all, row, _⟩ := stays.folds folds all
    rw [visited]
    have outcome := collapsed (.row folded) rfl all
    exact ⟨outcome.1, outcome.2 ∘ row⟩
  | cluster elements =>
    have all : ∀ element ∈ elements, Sound P free element := fun element member =>
      below.child (stays.not_free _ (by simp) (by simp)) member
    by_cases meaning : pass = .operatorMeaning
    · obtain ⟨relabelled, visited, all⟩ : ∃ relabelled, pass.visit (.cluster elements) =
          .cluster relabelled ∧ ∀ element ∈ relabelled, Sound P free element := by
        subst meaning
        simp only [Pass.visit]
        unfold operatorMeaning
        split
        · contradiction
        · rename_i symbol rest same
          cases same
          exact ⟨_, rfl, List.forall_mem_cons.mpr
            ⟨stays.sound_operator rfl _, (List.forall_mem_cons.mp all).2⟩⟩
        · exact ⟨elements, rfl, all⟩
      have outcome := collapsed (.cluster relabelled) rfl all
      rw [← visited] at outcome
      subst meaning
      exact ⟨outcome.1, outcome.2 ∘ stays.meaning rfl⟩
    · obtain ⟨folded, visited, folds⟩ := folds_visit_cluster other meaning elements
      obtain ⟨all, _, cluster⟩ := stays.folds folds all
      rw [visited]
      have outcome := collapsed (.cluster folded) rfl all
      exact ⟨outcome.1, outcome.2 ∘ cluster⟩
  | operator symbol =>
    cases pass with
    | operatorMeaning =>
      have operator := stays.sound_operator rfl (leftover symbol)
      exact ⟨operator.2, fun _ => operator.1⟩
    | _ => exact ⟨below, id⟩
  | _ => cases pass <;> exact ⟨below, id⟩

theorem below_apply (other : pass ≠ .invisibleProduct) {tree : Tree} (firm : Firm tree)
    (below : Below P free tree) :
    Below P free (pass.apply tree) ∧ (P tree → P (pass.apply tree)) := by
  induction tree using pass.induct with
  | step tree ih =>
    obtain ⟨visited, kept⟩ := stays.collapse_visit other below
    have firm := firm.collapse_visit other
    have inside (child : Tree) (member : child ∈ (pass.visit tree).collapse.children) :
        Below P free (pass.apply child) ∧ (P child → P (pass.apply child)) :=
      ih child member (firm.child member) ((below_iff.mp visited).2 child member)
    rw [pass.apply_eq]
    refine ⟨below_iff.mpr ⟨fun here => ?_, ?_⟩,
      fun holds => stays.parts (fun child member => firm.child member) (kept holds)⟩
    · rw [children_mapChildren, List.forall_mem_map]
      rw [stays.free_map] at here
      exact fun child member => (inside child member).2 ((below_iff.mp visited).1 here child member)
    · rw [children_mapChildren, List.forall_mem_map]
      exact fun child member => (inside child member).1

end Stays
end PlainMath.Layout
