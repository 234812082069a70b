import PlainMath.Tree.Walk

/-! Trees whose nodes all have a property. The direct parts of a tree are of two
kinds: a lower bound, a subscript or the index of a root is a slot, in which an
empty row stands for nothing; all other parts have to be there. -/
namespace PlainMath.Tree

/-- The parts that an empty row can stand for. -/
def slots : Tree → List Tree
  | .scripted _ subscript _ => subscript.toList
  | .root _ index => index.toList
  | .limits _ lower _ => [lower]
  | .stackedLimits _ lower _ => [lower]
  | _ => []

def parts : Tree → List Tree
  | .scripted base _ superscript => base :: superscript.toList
  | .root radicand _ => [radicand]
  | .limits _ _ upper => upper.toList
  | .stackedLimits base _ upper => base :: upper.toList
  | tree => tree.children

theorem mem_children {tree child : Tree} :
    child ∈ tree.children ↔ child ∈ tree.parts ∨ child ∈ tree.slots := by
  cases tree with
  | scripted base subscript superscript =>
    simp only [children, parts, slots, List.mem_cons, List.mem_append]
    grind
  | root radicand index => simp [children, parts, slots]
  | limits glyph lower upper => simp [children, parts, slots, or_comm]
  | stackedLimits base lower upper =>
    simp only [children, parts, slots, List.mem_cons, List.not_mem_nil]
    grind
  | _ => simp [parts, slots]

@[simp] theorem parts_mapChildren (f : Tree → Tree) (tree : Tree) :
    (tree.mapChildren f).parts = tree.parts.map f := by
  cases tree with
  | scripted base subscript superscript => cases superscript <;> rfl
  | limits glyph lower upper => cases upper <;> rfl
  | stackedLimits base lower upper => cases upper <;> rfl
  | grid rows => exact children_mapChildren f (.grid rows)
  | bracketed left right contents => exact children_mapChildren f (.bracketed left right contents)
  | _ => rfl

@[simp] theorem slots_mapChildren (f : Tree → Tree) (tree : Tree) :
    (tree.mapChildren f).slots = tree.slots.map f := by
  cases tree with
  | scripted base subscript superscript => cases subscript <;> rfl
  | root radicand index => cases index <;> rfl
  | _ => rfl

/-- All nodes have the property, apart from the empty rows in slots. -/
inductive Built (L : Tree → Prop) : Tree → Prop
  | node {tree : Tree} : L tree → (∀ part ∈ tree.parts, Built L part) →
      (∀ slot ∈ tree.slots, slot ≠ emptyRow → Built L slot) → Built L tree

namespace Built
variable {L : Tree → Prop} {tree : Tree}

theorem here : Built L tree → L tree
  | node holds _ _ => holds

theorem part : Built L tree → ∀ part ∈ tree.parts, Built L part
  | node _ parts _ => parts

theorem slot : Built L tree → ∀ slot ∈ tree.slots, slot ≠ emptyRow → Built L slot
  | node _ _ slots => slots

theorem leaf (holds : L tree) (alone : tree.children = []) : Built L tree := by
  have childless {child : Tree} (member : child ∈ tree.children) : False := by
    rw [alone] at member
    cases member
  exact node holds (fun _ part => (childless (mem_children.mpr (.inl part))).elim)
    fun _ slot => (childless (mem_children.mpr (.inr slot))).elim

theorem unwrap (built : Built L tree) : Built L tree.unwrap := by
  unfold Tree.unwrap
  split
  · rename_i left right contents
    exact built.part contents (by simp [parts, children])
  · exact built

end Built

theorem nodes_eq (tree : Tree) : tree.nodes = tree :: tree.children.flatMap nodes := by
  rw [nodes]
  simp

theorem mem_nodes_self (tree : Tree) : tree ∈ tree.nodes := by
  rw [nodes_eq]
  exact List.mem_cons_self

theorem mem_nodes_of_mem_children {tree node child : Tree} (member : node ∈ tree.nodes)
    (part : child ∈ node.children) : child ∈ tree.nodes := by
  induction tree using Tree.induct with
  | step tree ih =>
    rw [nodes_eq, List.mem_cons, List.mem_flatMap] at member ⊢
    rcases member with rfl | ⟨inner, place, member⟩
    · exact .inr ⟨child, part, mem_nodes_self child⟩
    · exact .inr ⟨inner, place, ih inner place member⟩

theorem Built.forall_nodes {L N : Tree → Prop} {tree : Tree} (built : Built L tree)
    (empty : N emptyRow)
    (shows : ∀ {tree}, Built L tree → N tree) : ∀ node ∈ tree.nodes, N node := by
  induction built with
  | node holds parts slots partNodes slotNodes =>
    rename_i tree
    intro node member
    rw [nodes_eq, List.mem_cons, List.mem_flatMap] at member
    rcases member with rfl | ⟨child, place, member⟩
    · exact shows (.node holds parts slots)
    · rcases mem_children.mp place with part | slot
      · exact partNodes child part node member
      · by_cases nothing : child = emptyRow
        · rw [nothing, nodes_eq] at member
          simp only [emptyRow, children, List.flatMap_nil, List.mem_singleton] at member
          rw [member]
          exact empty
        · exact slotNodes child slot nothing node member

theorem ofRow?_eq_some {elements : List Tree} {tree : Tree}
    (found : ofRow? elements = some tree) :
    elements = [tree] ∨ 2 ≤ elements.length ∧ tree = .row elements := by
  match elements with
  | [] => cases found
  | [only] =>
    cases found
    exact .inl rfl
  | _ :: _ :: _ =>
    cases found
    exact .inr ⟨by simp, rfl⟩

theorem ofCluster?_eq_some {elements : List Tree} {tree : Tree}
    (found : ofCluster? elements = some tree) :
    elements = [tree] ∨ 2 ≤ elements.length ∧ tree = .cluster elements := by
  match elements with
  | [] => cases found
  | [only] =>
    cases found
    exact .inl rfl
  | _ :: _ :: _ =>
    cases found
    exact .inr ⟨by simp, rfl⟩

theorem flatMap_ofRow? {β : Type} {f : Tree → List β}
    (inside : ∀ elements, f (.row elements) = elements.flatMap f) (elements : List Tree) :
    (ofRow? elements).toList.flatMap f = elements.flatMap f := by
  unfold ofRow?
  split <;> simp [inside]

theorem flatMap_ofCluster? {β : Type} {f : Tree → List β}
    (inside : ∀ elements, f (.cluster elements) = elements.flatMap f) (elements : List Tree) :
    (ofCluster? elements).toList.flatMap f = elements.flatMap f := by
  unfold ofCluster?
  split <;> simp [inside]

theorem ofRow?_eq_collapse {elements : List Tree} (nonempty : elements ≠ []) :
    ofRow? elements = some (collapse (.row elements)) := by
  match elements with
  | [] => exact absurd rfl nonempty
  | [_] => rfl
  | _ :: _ :: _ => rfl

theorem ofRow?_getD (elements : List Tree) :
    (ofRow? elements).getD emptyRow = collapse (.row elements) := by
  match elements with
  | [] => rfl
  | [_] => rfl
  | _ :: _ :: _ => rfl

theorem ofCluster?_eq_collapse {elements : List Tree} (nonempty : elements ≠ []) :
    ofCluster? elements = some (collapse (.cluster elements)) := by
  match elements with
  | [] => exact absurd rfl nonempty
  | [_] => rfl
  | _ :: _ :: _ => rfl

end PlainMath.Tree
