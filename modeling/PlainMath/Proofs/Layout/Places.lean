import PlainMath.Proofs.Layout.BraceCount
import PlainMath.Proofs.Layout.Repeated

/-! The places in rows, clusters and grids. Whatever a pass folds has fewer of them than before, so
passes that lead back to the same tree have changed nothing on the way. -/
namespace PlainMath.Layout
open PlainMath.Tree

variable {pass : Pass} {tree : Tree}

/-- The elements of a row or a cluster, the cells of a grid, and one for an operator, as a fraction
has the places of its bar and of all that stands beside it. -/
def ownPlaces : Tree → Nat
  | .row elements => elements.length
  | .cluster elements => elements.length
  | .grid rows => rows.flatten.length
  | .operator _ => 1
  | _ => 0

def places (tree : Tree) : Nat := tree.total ownPlaces

@[simp] theorem total_ownPlaces (tree : Tree) : tree.total ownPlaces = places tree := rfl

def worth (trees : List Tree) : Nat := trees.length + totals ownPlaces trees

@[simp] theorem worth_nil : worth [] = 0 := rfl

@[simp] theorem worth_cons (tree : Tree) (trees : List Tree) :
    worth (tree :: trees) = 1 + places tree + worth trees := by
  simp only [worth, totals_cons, places, List.length_cons]
  omega

@[simp] theorem worth_append (first second : List Tree) :
    worth (first ++ second) = worth first + worth second := by
  simp only [worth, totals_append, List.length_append]
  omega

theorem places_row (elements : List Tree) : places (.row elements) = worth elements :=
  total_eq ownPlaces (.row elements)

theorem places_cluster (elements : List Tree) : places (.cluster elements) = worth elements :=
  total_eq ownPlaces (.cluster elements)

theorem places_grid (rows : List (List Tree)) : places (.grid rows) = worth rows.flatten :=
  total_eq ownPlaces (.grid rows)

theorem places_inner (placeless : ownPlaces tree = 0) :
    places tree = totals ownPlaces tree.children := by
  rw [places, total_eq, placeless, Nat.zero_add]

@[simp] theorem places_operator (symbol : String) : places (.operator symbol) = 1 :=
  total_eq ownPlaces (.operator symbol)

theorem places_bracketed (left right : String) (contents : Option Tree) :
    places (.bracketed left right contents) = totals ownPlaces contents.toList := places_inner rfl

theorem places_scripted (base : Tree) (subscript superscript : Option Tree) :
    places (.scripted base subscript superscript) =
      places base + (totals ownPlaces subscript.toList + totals ownPlaces superscript.toList) := by
  rw [places_inner rfl, children, totals_cons, totals_append]
  rfl

theorem totals_some (tree : Tree) : totals ownPlaces (some tree).toList = places tree := by simp

theorem totals_none : totals ownPlaces (none : Option Tree).toList = 0 := rfl

@[simp] theorem places_unwrap (tree : Tree) : places tree.unwrap = places tree :=
  total_unwrap (fun _ _ _ => rfl) tree

theorem places_raise (base superscript : Tree) :
    places (raise base superscript) = places base + places superscript := by
  unfold raise
  split
  · simp only [places_scripted, totals_some, totals_none]
    omega
  · simp [places_scripted]

theorem totals_ofRow?_le (elements : List Tree) :
    totals ownPlaces (ofRow? elements).toList ≤ worth elements := by
  match elements with
  | [] => exact Nat.le_refl _
  | [only] => simp [ofRow?]
  | first :: second :: rest =>
    have several : ofRow? (first :: second :: rest) = some (.row (first :: second :: rest)) := rfl
    simp [several, places_row]

theorem places_bounds_le (contents : Option Tree) :
    places (bounds contents).1 + totals ownPlaces (bounds contents).2.toList ≤
      totals ownPlaces contents.toList := by
  have empty : places emptyRow = 0 := places_row []
  unfold bounds
  split
  · simp [empty]
  · rename_i elements
    split
    · simp
    · rename_i dots upper found
      obtain ⟨_, whole⟩ := eq_append_of_cut found
      have below := totals_ofRow?_le (elements.takeWhile (!·.isOperator Glyph.range))
      have above := totals_ofRow?_le upper
      have lower (lower : Option Tree) :
          places (lower.getD emptyRow) = totals ownPlaces lower.toList := by
        cases lower <;> simp [empty]
      have sides := congrArg worth whole
      simp only [worth_append, worth_cons] at sides
      simp only [lower, totals_some, places_row]
      omega
  · simp

theorem places_bound_le (target : Tree) (limits : Tree × Option Tree) :
    places (bound target limits) ≤
      places target + (places limits.1 + totals ownPlaces limits.2.toList) := by
  unfold bound
  split
  · rw [places_inner rfl, children, totals_cons]
    exact Nat.le_add_left _ _
  · rw [places_inner rfl, children, totals_cons, totals_cons]
    exact Nat.le_refl _
  · rw [places_inner rfl, children, totals_cons, totals_cons]
    exact Nat.le_refl _
  · simp [places_scripted]

theorem places_side_le (elements : List Tree) : places (side elements) ≤ worth elements := by
  match elements with
  | [] => exact Nat.le_of_eq (places_row [])
  | [only] =>
    have single : side [only] = only.unwrap := rfl
    simp [single]
  | first :: second :: rest => exact Nat.le_of_eq (places_cluster _)

theorem places_sideBySide_le (cells : List Tree) : places (sideBySide cells) ≤ worth cells := by
  unfold sideBySide
  split
  · simp
  · exact Nat.le_of_eq (places_row _)

theorem totals_radical?_le {radical : Tree} {index : Option Tree}
    (found : radical? radical = some index) : totals ownPlaces index.toList ≤ places radical := by
  unfold radical? at found
  split at found
  · split at found <;> cases found
    exact Nat.zero_le _
  · split at found <;> cases found
    rw [places_inner rfl]
    simp [children]
  · cases found

theorem Makes.places_lt {block : List Tree} {made : Tree} (makes : Makes pass block made) :
    1 + places made < worth block := by
  cases makes with
  | subscript script operand =>
    simp only [places_scripted, totals_some, totals_none, places_unwrap, places_operator, worth_cons,
      worth_nil]
    omega
  | blankBase script =>
    have blank : places (.identifier "") = 0 := places_inner rfl
    simp only [places_scripted, totals_some, totals_none, places_unwrap, places_operator, worth_cons,
      worth_nil, blank]
    omega
  | numbered symbol numeral =>
    simp only [places_scripted, totals_some, totals_none, worth_cons, worth_nil]
    omega
  | exponent script operand =>
    simp only [places_raise, places_unwrap, places_operator, worth_cons, worth_nil]
    omega
  | @bound target bracket contents takes found =>
    obtain ⟨right, rfl⟩ := rangeContents?_eq_some found
    have bound := places_bound_le target (bounds contents)
    have inside := places_bounds_le contents
    simp only [worth_cons, worth_nil, places_bracketed]
    omega
  | @root radical index radicand found =>
    have below := totals_radical?_le found
    have whole : places (.root radicand.unwrap index) =
        places radicand.unwrap + totals ownPlaces index.toList := by
      rw [places_inner rfl]
      simp [children]
    simp only [whole, places_unwrap, worth_cons, worth_nil]
    omega
  | @fraction before behind bar found numerator denominator =>
    obtain rfl := eq_operator_of_isOperator found
    have left := places_side_le before
    have right := places_side_le behind
    have whole : places (.fraction (side before) (side behind)) =
        places (side before) + places (side behind) := by
      rw [places_inner rfl]
      simp [children]
    simp only [whole, worth_append, worth_cons, places_operator]
    omega
  | primes count operand =>
    have signs (count : Nat) : worth (List.replicate count (.operator Glyph.prime)) = 2 * count := by
      induction count with
      | zero => rfl
      | succ count ih =>
        rw [List.replicate_succ, worth_cons, ih, places_operator]
        omega
    have script : places (Layout.primes (count + 1)) = 1 := places_operator _
    simp only [places_raise, script, worth_cons, signs]
    omega
  | mark symbol operand =>
    simp only [places_raise, places_operator, worth_cons, worth_nil]
    omega
  | @brace sign bracket side comment base signed rows =>
    obtain ⟨left, right, rfl⟩ := twoRows?_eq_some rows
    have above := places_sideBySide_le comment
    have below := places_sideBySide_le base
    have whole : places (.brace side (sideBySide base) (sideBySide comment)) =
        places (sideBySide base) + places (sideBySide comment) := by
      rw [places_inner rfl]
      simp [children]
    simp only [whole, places_bracketed, totals_some, places_grid, List.flatten_cons, List.flatten_nil,
      List.append_nil, worth_append, worth_cons, worth_nil]
    omega

theorem Folds.worth_lt {elements folded : List Tree} (folds : Folds pass elements folded) :
    folded = elements ∨ worth folded < worth elements := by
  induction folds with
  | refl => exact .inl rfl
  | tail _ replaces ih =>
    cases replaces with
    | make front behind makes =>
      have fewer := makes.places_lt
      simp only [worth_append, worth_cons] at ih ⊢
      rcases ih with rfl | less
      · right
        simp only [worth_append]
        omega
      · right
        omega

theorem worth_filter_lt (symbol : String) (elements : List Tree) :
    elements.filter (!·.isOperator symbol) = elements ∨
      worth (elements.filter (!·.isOperator symbol)) < worth elements := by
  induction elements with
  | nil => exact .inl rfl
  | cons element elements ih =>
    rw [List.filter_cons]
    split
    · rcases ih with same | less
      · exact .inl (by rw [same])
      · simp only [worth_cons]
        omega
    · have bound : worth (elements.filter (!·.isOperator symbol)) ≤ worth elements := by
        rcases ih with same | less
        · exact Nat.le_of_eq (congrArg worth same)
        · exact Nat.le_of_lt less
      simp only [worth_cons]
      omega

theorem places_collapse_lt (tree : Tree) :
    tree.collapse = tree ∨ places tree.collapse < places tree := by
  unfold collapse
  split
  · rw [places_row]
    simp
  · rw [places_cluster]
    simp
  · exact .inl rfl

theorem places_visit_lt (meaning : pass ≠ .operatorMeaning) (tree : Tree) :
    pass.visit tree = tree ∨ places (pass.visit tree) < places tree := by
  cases tree with
  | row elements =>
    obtain ⟨folded, visited, folds⟩ := folds_visit_row pass elements
    rw [visited, places_row, places_row]
    exact folds.worth_lt.imp_left (congrArg Tree.row)
  | cluster elements =>
    by_cases product : pass = .invisibleProduct
    · subst product
      have visited : Pass.invisibleProduct.visit (.cluster elements) =
        .cluster (elements.filter (!·.isOperator Glyph.invisibleProduct)) := rfl
      rw [visited, places_cluster, places_cluster]
      exact (worth_filter_lt _ elements).imp_left (congrArg Tree.cluster)
    · obtain ⟨folded, visited, folds⟩ := folds_visit_cluster product meaning elements
      rw [visited, places_cluster, places_cluster]
      exact folds.worth_lt.imp_left (congrArg Tree.cluster)
  | operator symbol =>
    cases pass with
    | operatorMeaning => contradiction
    | _ => exact .inl rfl
  | _ => cases pass <;> exact .inl rfl

theorem places_operatorMeaning (tree : Tree) : places (operatorMeaning tree) = places tree := by
  unfold operatorMeaning
  split
  · rw [places_operator, places_operator]
  · simp [places_cluster]
  · rfl

theorem ownPlaces_mapChildren (f : Tree → Tree) (tree : Tree) :
    ownPlaces (tree.mapChildren f) = ownPlaces tree := by
  cases tree with
  | grid rows => simp [ownPlaces, mapChildren, Function.comp_def]
  | row elements | cluster elements => simp [ownPlaces, mapChildren]
  | _ => rfl

theorem totals_map_le {f : Tree → Tree} {trees : List Tree}
    (each : ∀ tree ∈ trees, places (f tree) ≤ places tree) :
    totals ownPlaces (trees.map f) ≤ totals ownPlaces trees ∧
      (totals ownPlaces (trees.map f) = totals ownPlaces trees →
        ∀ tree ∈ trees, places (f tree) = places tree) := by
  induction trees with
  | nil => simp
  | cons tree trees ih =>
    obtain ⟨first, rest⟩ := List.forall_mem_cons.mp each
    obtain ⟨bound, same⟩ := ih rest
    simp only [List.map_cons, totals_cons, total_ownPlaces, List.forall_mem_cons]
    refine ⟨by omega, fun equal => ⟨by omega, same (by omega)⟩⟩

theorem places_apply_le_visit (pass : Pass) (tree : Tree)
    (below : ∀ child ∈ (pass.visit tree).collapse.children,
      places (pass.apply child) ≤ places child) :
    places (pass.apply tree) ≤ places (pass.visit tree).collapse ∧
      (places (pass.apply tree) = places (pass.visit tree).collapse →
        ∀ child ∈ (pass.visit tree).collapse.children, places (pass.apply child) = places child) := by
  have applied : places (pass.apply tree) = _ := total_eq ownPlaces (pass.apply tree)
  rw [pass.apply_eq, children_mapChildren, ownPlaces_mapChildren] at applied
  have whole : places (pass.visit tree).collapse = _ := total_eq ownPlaces (pass.visit tree).collapse
  obtain ⟨bound, equal⟩ := totals_map_le below
  rw [pass.apply_eq]
  exact ⟨by omega, fun same => equal (by omega)⟩

theorem places_collapse_visit_le (pass : Pass) (tree : Tree) :
    places (pass.visit tree).collapse ≤ places tree := by
  have collapsed : places (pass.visit tree).collapse ≤ places (pass.visit tree) := by
    rcases places_collapse_lt (pass.visit tree) with same | less
    · rw [same]
    · omega
  by_cases meaning : pass = .operatorMeaning
  · subst meaning
    exact Nat.le_trans collapsed (Nat.le_of_eq (places_operatorMeaning tree))
  · rcases places_visit_lt meaning tree with same | less
    · rwa [same] at collapsed ⊢
    · omega

theorem places_apply_le (pass : Pass) (tree : Tree) : places (pass.apply tree) ≤ places tree := by
  induction tree using pass.induct with
  | step tree ih =>
    exact Nat.le_trans (places_apply_le_visit pass tree ih).1 (places_collapse_visit_le pass tree)

theorem collapse_visit_eq_of_places_eq (meaning : pass ≠ .operatorMeaning)
    (same : places (pass.apply tree) = places tree) : (pass.visit tree).collapse = tree := by
  have walked := (places_apply_le_visit pass tree fun child _ => places_apply_le pass child).1
  rcases places_visit_lt meaning tree with visited | less
  · rw [visited] at walked ⊢
    refine (places_collapse_lt tree).resolve_right fun less => ?_
    omega
  · rcases places_collapse_lt (pass.visit tree) with collapsed | less'
    · rw [collapsed] at walked
      omega
    · omega

theorem apply_eq_of_places_eq (meaning : pass ≠ .operatorMeaning)
    (same : places (pass.apply tree) = places tree) : pass.apply tree = tree := by
  induction tree using Tree.induct with
  | step tree ih =>
    have unchanged := collapse_visit_eq_of_places_eq meaning same
    have each := (places_apply_le_visit pass tree fun child _ => places_apply_le pass child).2
    rw [unchanged] at each
    rw [pass.apply_eq, unchanged]
    exact mapChildren_eq_self fun child member => ih child member (each same child member)

theorem finished_of_apply_eq (product : pass ≠ .invisibleProduct) (other : pass ≠ .exponents)
    (meaning : pass ≠ .operatorMeaning) (firm : Firm tree) (same : pass.apply tree = tree) :
    ∀ node ∈ tree.nodes, pass.Finished node := by
  induction tree using Tree.induct with
  | step tree ih =>
    have unchanged := collapse_visit_eq_of_places_eq meaning (congrArg places same)
    rw [nodes_eq, List.forall_mem_cons]
    constructor
    · have finished := finished_collapse_visit product other firm
      rwa [unchanged] at finished
    · intro node member
      obtain ⟨child, place, member⟩ := List.mem_flatMap.mp member
      refine ih child place (firm.child place) ?_ node member
      rw [pass.apply_eq, unchanged] at same
      have parts := congrArg children same
      rw [children_mapChildren] at parts
      exact List.map_inj_left.mp (parts.trans (List.map_id _).symm) child place

theorem apply_eq_of_foldl_eq {passes : List Pass}
    (meaning : Pass.operatorMeaning.apply tree = tree)
    (same : passes.foldl (fun folded pass => pass.apply folded) tree = tree) :
    ∀ pass ∈ passes, pass.apply tree = tree := by
  have bound (passes : List Pass) (tree : Tree) :
      places (passes.foldl (fun folded pass => pass.apply folded) tree) ≤ places tree := by
    induction passes generalizing tree with
    | nil => exact Nat.le_refl _
    | cons pass passes ih => exact Nat.le_trans (ih (pass.apply tree)) (places_apply_le pass tree)
  induction passes with
  | nil => simp
  | cons pass passes ih =>
    have first : pass.apply tree = tree := by
      by_cases here : pass = .operatorMeaning
      · rw [here, meaning]
      · refine apply_eq_of_places_eq here ?_
        have rest := bound passes (pass.apply tree)
        rw [List.foldl_cons] at same
        rw [same] at rest
        exact Nat.le_antisymm (places_apply_le pass tree) rest
    rw [List.foldl_cons, first] at same
    exact List.forall_mem_cons.mpr ⟨first, ih same⟩

end PlainMath.Layout
