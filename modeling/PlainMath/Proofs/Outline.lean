import Mathlib.Data.List.SplitBy
import Mathlib.Data.Prod.Basic
import PlainMath.Outline
import PlainMath.Proofs.Text.Pieces
import PlainMath.Proofs.Tree.Built

/-! An outline shows the shape of its tree. It has one line for each node, in the order in
which the nodes are walked, and the margin of the line tells the way from the root to the
node. The depth and the kind of each node can be read off its line whatever the labels
are, and these determine the kind of the node at every place of the tree. -/
namespace PlainMath

namespace Tree

/-- All nodes, each in front of its parts, with the way that leads to it: for every node below
the root on this way, the last one being the node itself, whether it is the last part of its
parent. -/
def trails (tree : Tree) : List (List Bool × Tree) :=
  ([], tree) :: tree.children.attach.zipIdx.flatMap fun part =>
    have := weight_lt_of_mem_children part.1.2
    part.1.1.trails.map fun place => ((part.2 + 1 == tree.children.length) :: place.1, place.2)
termination_by tree.weight

def at? : Tree → List Nat → Option Tree
  | tree, [] => some tree
  | tree, index :: address => tree.children[index]?.bind (at? · address)

theorem trails_eq (tree : Tree) :
    tree.trails = ([], tree) :: tree.children.zipIdx.flatMap fun part =>
      part.1.trails.map fun place =>
        ((part.2 + 1 == tree.children.length) :: place.1, place.2) := by
  have numbered : tree.children.zipIdx =
      tree.children.attach.zipIdx.map (Prod.map Subtype.val id) := by
    rw [← List.zipIdx_map, List.attach_map_subtype_val]
  rw [trails, numbered, List.flatMap_map]
  rfl

theorem flatMap_zipIdx {α β : Type} (f : α → List β) (items : List α) (start : Nat) :
    ((items.zipIdx start).flatMap fun item => f item.1) = items.flatMap f := by
  induction items generalizing start with
  | nil => rfl
  | cons item items ih => rw [List.zipIdx_cons, List.flatMap_cons, List.flatMap_cons, ih]

theorem map_snd_trails (tree : Tree) : tree.trails.map Prod.snd = tree.nodes := by
  induction tree using Tree.induct with
  | step tree ih =>
    rw [trails_eq, nodes_eq, List.map_cons, List.map_flatMap]
    simp only [List.map_map, Function.comp_def]
    rw [flatMap_zipIdx (fun child : Tree => child.trails.map Prod.snd)]
    exact congrArg _ (List.flatMap_congr ih)

end Tree

namespace Outline
open PlainMath.Tree

def column (last : Bool) : String := if last then "  " else "│ "

def connector (last : Bool) : String := if last then "└─ " else "├─ "

/-- A column for each node between the root and the node of the line, and the connector of that
node itself. The root has no margin. -/
def margin : List Bool → String
  | [] => ""
  | [last] => connector last
  | last :: next :: more => column last ++ margin (next :: more)

def line (place : List Bool × Tree) : String := margin place.1 ++ title place.2

theorem lines_eq (tree : Tree) : lines tree = title tree :: branches (tree.children.map lines) := by
  rw [lines]
  simp

theorem branches_eq (blocks : List (List String)) (start : Nat) :
    branches blocks = (blocks.zipIdx start).flatMap fun block =>
      branch (block.2 + 1 == start + blocks.length) block.1 := by
  induction blocks generalizing start with
  | nil => rfl
  | cons first rest ih =>
    cases rest with
    | nil => simp [branches]
    | cons second rest =>
      have inner : (start + 1 == start + (first :: second :: rest).length) = false := by simp
      have size : start + (first :: second :: rest).length = start + 1 + (second :: rest).length := by
        simp only [List.length_cons]
        omega
      rw [branches, ih (start + 1), List.zipIdx_cons (a := first), List.flatMap_cons, inner, size]
      simp

theorem branch_trails (last : Bool) (tree : Tree) :
    branch last (tree.trails.map line) =
      tree.trails.map fun place => line (last :: place.1, place.2) := by
  have root : (if last then "└─ " else "├─ ") ++ line ([], tree) = line ([last], tree) := by
    simp [line, margin, connector]
  have deeper (turn : Bool) (place : List Bool × Tree) :
      (if last then "  " else "│ ") ++ line (turn :: place.1, place.2) =
        line (last :: turn :: place.1, place.2) := by
    simp [line, margin, column, String.append_assoc]
  rw [trails_eq, List.map_cons, List.map_cons, branch, root]
  simp only [List.map_flatMap, List.map_map, Function.comp_def, deeper]

theorem lines_eq_trails (tree : Tree) : lines tree = tree.trails.map line := by
  induction tree using Tree.induct with
  | step tree ih =>
    have root : title tree = line ([], tree) := by simp [line, margin]
    rw [lines_eq, trails_eq, List.map_cons, List.map_flatMap, branches_eq _ 0, List.zipIdx_map,
      List.flatMap_map, root]
    refine congrArg _ (List.flatMap_congr fun part numbered => ?_)
    have listed : part.1 ∈ tree.children := List.fst_mem_of_mem_zipIdx numbered
    simp only [Prod.map, ih part.1 listed, branch_trails, List.length_map, List.map_map,
      Nat.zero_add, Function.comp_def, id]

def OnOneLine (tree : Tree) : Prop := ∀ node ∈ tree.nodes, '\n' ∉ (label node).toList

theorem short_subset (text : String) {c : Char} (member : c ∈ (short text).toList) :
    c ∈ text.toList ∨ c = '.' := by
  unfold short at member
  split at member
  · rw [String.toList_append, String.toList_ofList, List.mem_append] at member
    exact member.imp List.mem_of_mem_take (by simp)
  · exact .inl member

/-- The characters of margins. Every icon is a single character that is not among them. -/
def inMargin (c : Char) : Bool := [' ', '│', '├', '└', '─'].contains c

theorem inMargin_margin (trail : List Bool) : ∀ c ∈ (margin trail).toList, inMargin c = true := by
  have drawn (last : Bool) : (column last ++ connector last).toList.all inMargin = true := by
    cases last <;> decide
  fun_induction margin trail with
  | case1 => simp
  | case2 last =>
    have both := drawn last
    rw [String.toList_append, List.all_append, Bool.and_eq_true] at both
    exact List.all_eq_true.mp both.2
  | case3 last next more ih =>
    have both := drawn last
    rw [String.toList_append, List.all_append, Bool.and_eq_true] at both
    rw [String.toList_append, List.forall_mem_append]
    exact ⟨List.all_eq_true.mp both.1, ih⟩

theorem length_margin (trail : List Bool) : (margin trail).toList.length / 2 = trail.length := by
  -- two characters for each column and three for the connector
  have wide (trail : List Bool) (below : trail ≠ []) :
      (margin trail).toList.length = 2 * trail.length + 1 := by
    fun_induction margin trail with
    | case1 => exact absurd rfl below
    | case2 last => cases last <;> rfl
    | case3 last next more ih =>
      have two : (column last).toList.length = 2 := by cases last <;> rfl
      rw [String.toList_append, List.length_append, two, ih (List.cons_ne_nil _ _)]
      simp only [List.length_cons]
      omega
  cases trail with
  | nil => rfl
  | cons last more =>
    rw [wide _ (List.cons_ne_nil _ _)]
    omega

def kinds : List (String × String) :=
  [("▦", "Grid"), ("↔", "Row"), ("⋯", "Cluster"), ("⟮", "Bracketed"), ("𝑥", "Identifier"),
    ("±", "Operator"), ("¶", "Text"), ("#", "Number"), ("⁄", "Fraction"), ("⌃", "Scripted"),
    ("√", "Root"), ("∑", "Limits"), ("⏞", "Overbrace"), ("⏟", "Underbrace")]

theorem icon_mem_kinds (tree : Tree) : (icon tree, tree.kindName) ∈ kinds := by
  cases tree with
  | brace side base comment => cases side <;> simp [kinds, icon, kindName]
  | _ => simp [kinds, icon, kindName]

theorem kindName_eq_of_icon {first second : Tree} (same : icon first = icon second) :
    first.kindName = second.kindName := by
  have unique : ∀ kind ∈ kinds, kinds.lookup kind.1 = some kind.2 := by decide
  have found := unique _ (icon_mem_kinds first)
  rw [same, unique _ (icon_mem_kinds second)] at found
  exact (Option.some.inj found).symm

theorem exists_icon (tree : Tree) :
    ∃ c, (icon tree).toList = [c] ∧ inMargin c = false ∧ c ≠ '\n' := by
  have single : ∀ kind ∈ kinds, kind.1.toList.length = 1 ∧
      kind.1.toList.all (fun c => !inMargin c && c != '\n') = true := by decide
  obtain ⟨one, drawn⟩ := single _ (icon_mem_kinds tree)
  obtain ⟨c, spelled⟩ := List.length_eq_one_iff.mp one
  rw [spelled] at drawn
  exact ⟨c, spelled, by simpa using drawn⟩

theorem line_single {place : List Bool × Tree} (single : '\n' ∉ (label place.2).toList) :
    '\n' ∉ (line place).toList := by
  obtain ⟨c, drawn, _, other⟩ := exists_icon place.2
  simp only [line, title, String.toList_append, drawn, List.mem_append, not_or]
  refine ⟨fun member => ?_, ⟨by simpa using Ne.symm other, by decide⟩, fun member => ?_⟩
  · exact absurd (inMargin_margin _ _ member) (by decide)
  · rcases short_subset _ member with inside | dot
    · exact single inside
    · exact absurd dot (by decide)

theorem lines_text {tree : Tree} (single : OnOneLine tree) :
    Text.lines (text tree).toList = tree.trails.map (fun place => (line place).toList) ++ [[]] := by
  have spelled : (text tree).toList =
      (tree.trails.map fun place => (line place).toList).flatMap (· ++ ['\n']) := by
    simp [text, lines_eq_trails, String.toList_join, List.flatMap_map]
  rw [spelled, Text.lines_flatMap]
  refine List.forall_mem_map.mpr fun place walked => line_single (single place.2 ?_)
  rw [← map_snd_trails]
  exact List.mem_map_of_mem walked

def reading (line : List Char) : Nat × List Char :=
  ((line.takeWhile inMargin).length / 2, (line.dropWhile inMargin).take 1)

def profile (tree : Tree) : List (Nat × List Char) :=
  tree.trails.map fun place => (place.1.length, (icon place.2).toList)

def indented (part : Tree) : List (Nat × List Char) := (profile part).map (Prod.map (· + 1) id)

theorem reading_line (place : List Bool × Tree) :
    reading (line place).toList = (place.1.length, (icon place.2).toList) := by
  obtain ⟨c, drawn, outside, _⟩ := exists_icon place.2
  have spelled : (line place).toList =
      (margin place.1).toList ++ c :: ' ' :: (short (label place.2)).toList := by
    simp [line, title, drawn]
  have inside := inMargin_margin place.1
  rw [reading, spelled, List.takeWhile_append_of_pos inside, List.dropWhile_append_of_pos inside,
    drawn]
  simp [outside, ← length_margin place.1]

theorem profile_eq_of_text {first second : Tree} (single : OnOneLine first)
    (single' : OnOneLine second) (same : text first = text second) :
    profile first = profile second := by
  have shown {tree : Tree} (single : OnOneLine tree) :
      (Text.lines (text tree).toList).dropLast.map reading = profile tree := by
    rw [lines_text single, List.dropLast_concat, List.map_map]
    exact List.map_congr_left fun place _ => reading_line place
  rw [← shown single, ← shown single', same]

theorem profile_eq (tree : Tree) :
    profile tree = (0, (icon tree).toList) :: (tree.children.map indented).flatten := by
  have shown (part : Tree) : (part.trails.map fun place =>
      (place.1.length + 1, (icon place.2).toList)) = indented part := by
    rw [indented, profile, List.map_map]
    rfl
  rw [profile, trails_eq, List.map_cons, List.map_flatMap]
  simp only [List.map_map, Function.comp_def, List.length_cons, shown]
  rw [flatMap_zipIdx indented]
  rfl

theorem indented_eq (part : Tree) : ∃ deeper,
    indented part = (1, (icon part).toList) :: deeper ∧ ∀ entry ∈ deeper, entry.1 ≠ 1 := by
  refine ⟨(part.children.map indented).flatten.map (Prod.map (· + 1) id), ?_, ?_⟩
  · rw [indented, profile_eq]
    rfl
  · rintro entry member
    obtain ⟨inner, listed, rfl⟩ := List.mem_map.mp member
    obtain ⟨block, below, inside⟩ := List.mem_flatten.mp listed
    obtain ⟨child, _, rfl⟩ := List.mem_map.mp below
    obtain ⟨entry, _, rfl⟩ := List.mem_map.mp inside
    simp

theorem splitBy_indented (parts : List Tree) :
    (parts.map indented).flatten.splitBy (fun _ entry => entry.1 != 1) = parts.map indented := by
  apply List.splitBy_flatten
  · simp only [List.mem_map, not_exists, not_and]
    intro part _ empty
    obtain ⟨deeper, cut, _⟩ := indented_eq part
    rw [cut] at empty
    cases empty
  · rintro block member
    obtain ⟨part, _, rfl⟩ := List.mem_map.mp member
    obtain ⟨deeper, cut, inner⟩ := indented_eq part
    rw [cut, List.isChain_iff_getElem]
    intro index bound
    simpa using inner _ (List.getElem_mem (Nat.lt_of_succ_lt_succ bound))
  · rw [List.isChain_iff_getElem]
    intro index bound
    have block (index : Nat) (bound : index < (parts.map indented).length) :
        ∃ deeper c, (parts.map indented)[index] = (1, c) :: deeper := by
      obtain ⟨deeper, cut, _⟩ := indented_eq (parts.get ⟨index, by simpa using bound⟩)
      exact ⟨deeper, _, by simpa using cut⟩
    obtain ⟨_, _, cut⟩ := block index (Nat.lt_of_succ_lt bound)
    obtain ⟨_, _, cut'⟩ := block (index + 1) bound
    exact ⟨by simp [cut], by simp [cut'], by simp [cut']⟩

theorem profiles_children {first second : Tree} (same : profile first = profile second) :
    first.children.map profile = second.children.map profile := by
  rw [profile_eq, profile_eq, List.cons.injEq] at same
  have blocks : first.children.map indented = second.children.map indented := by
    rw [← splitBy_indented, same.2, splitBy_indented]
  have step : Function.Injective (fun depth : Nat => depth + 1) := fun _ _ => Nat.succ.inj
  have shift : Function.Injective (List.map (Prod.map (· + 1) id : Nat × List Char → _)) :=
    List.map_injective_iff.mpr (step.prodMap Function.injective_id)
  apply List.map_injective_iff.mpr shift
  rw [List.map_map, List.map_map]
  exact blocks

theorem kindName_at? {first second : Tree} (same : profile first = profile second)
    (address : List Nat) :
    (first.at? address).map kindName = (second.at? address).map kindName := by
  induction address generalizing first second with
  | nil =>
    rw [profile_eq, profile_eq, List.cons.injEq, Prod.mk.injEq] at same
    exact congrArg some (kindName_eq_of_icon (String.toList_inj.mp same.1.2))
  | cons index address ih =>
    have parts := congrArg (fun profiles => profiles[index]?) (profiles_children same)
    simp only [List.getElem?_map] at parts
    rw [at?, at?]
    cases here : first.children[index]? with
    | none =>
      rw [here, Option.map_none, eq_comm, Option.map_eq_none_iff] at parts
      rw [parts]
    | some part =>
      rw [here, Option.map_some, eq_comm, Option.map_eq_some_iff] at parts
      obtain ⟨part', there, alike⟩ := parts
      rw [there]
      exact ih alike.symm

/-- The outline of a tree whose labels have no line breaks has one line for each node, in the
order of the walk, and the margin of a line is made of the columns of the nodes on the way to its
node and of the connector of that node. Trees with the same outline have the same shape, with
nodes of the same kind at every address, whatever their labels are. -/
theorem text_shows_shape :
    (∀ tree, OnOneLine tree →
      Text.lines (text tree).toList = tree.trails.map (fun place => (line place).toList) ++ [[]] ∧
      tree.trails.map Prod.snd = tree.nodes) ∧
    ∀ first second, OnOneLine first → OnOneLine second → text first = text second →
      ∀ address, (first.at? address).map kindName = (second.at? address).map kindName := by
  constructor
  · intro tree single
    exact ⟨lines_text single, map_snd_trails tree⟩
  · intro first second single single' same address
    exact kindName_at? (profile_eq_of_text single single' same) address

theorem text_shows_shape_cut_labels :
    text (.fraction (.text "a text that goes on beyond the end") (.text "├─ # 2")) =
      text (.fraction (.text "a text that goes on beyond the edge") (.text "├─ # 2")) ∧
    ∀ address, (at? (.fraction (.text "a text that goes on beyond the end") (.text "├─ # 2"))
        address).map kindName =
      (at? (.fraction (.text "a text that goes on beyond the edge") (.text "├─ # 2"))
        address).map kindName := by
  have single (label : String) (unbroken : '\n' ∉ label.toList) :
      OnOneLine (.fraction (.text label) (.text "├─ # 2")) := by
    intro node walked
    simp only [nodes_eq, children, List.flatMap_cons, List.flatMap_nil, List.mem_cons,
      List.cons_append, List.nil_append, List.append_nil, List.not_mem_nil, or_false] at walked
    rcases walked with rfl | rfl | rfl
    · exact (by decide : '\n' ∉ "fraction".toList)
    · exact unbroken
    · decide
  have cut : title (.text "a text that goes on beyond the end") =
      title (.text "a text that goes on beyond the edge") := by decide
  have same : text (.fraction (.text "a text that goes on beyond the end") (.text "├─ # 2")) =
      text (.fraction (.text "a text that goes on beyond the edge") (.text "├─ # 2")) := by
    simp only [text, lines_eq, children, List.map_cons, List.map_nil, cut]
    rfl
  exact ⟨same, text_shows_shape.2 _ _ (single _ (by decide)) (single _ (by decide)) same⟩

end Outline
end PlainMath
