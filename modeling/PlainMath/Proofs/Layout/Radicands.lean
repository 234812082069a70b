import PlainMath.Proofs.Layout.BraceCount
import PlainMath.Proofs.Layout.Stranded

/-! Radicands that are operators. A radical takes whatever follows it, so a root is drawn over an
operator when an operator follows, bare or alone in brackets. The radicals in front of a radical
take the root that it makes. Nothing else gives a root an operator for its radicand, and all such
roots come from the tree as it is in front of the pass for roots. -/
namespace PlainMath.Layout
open PlainMath.Tree

/-- A radical and an operator behind it, bare or alone in brackets. The operator may be a radical
only if it has nothing to take itself. -/
inductive OpensBareRoot : List Tree → Prop
  | operator {radical : Tree} (found : (radical? radical).isSome = true) (symbol : String)
      (behind : List Tree) (idle : symbol = Glyph.radical → behind = []) :
      OpensBareRoot (radical :: .operator symbol :: behind)
  | bracketed {radical : Tree} (found : (radical? radical).isSome = true)
      (left right symbol : String) (behind : List Tree) :
      OpensBareRoot (radical :: .bracketed left right (some (.operator symbol)) :: behind)

/-- The elements without the radicals that make roots. Of a radical with bounds the lower one is
left, the index of the root. -/
def keptElements : List Tree → List Tree
  | [] => []
  | [last] => [last]
  | first :: second :: rest =>
    ((radical? first).getD (some first)).toList ++ keptElements (second :: rest)

def keptParts (tree : Tree) : List Tree := (tree.elements?.map keptElements).getD tree.children

def Kept : Tree → Tree → Prop := Relation.ReflTransGen fun tree part => part ∈ keptParts tree

def Radicands (Q : Tree → Prop) (tree : Tree) : Prop :=
  ∀ radicand index, .root radicand index ∈ tree.nodes → Q radicand

variable {Q : Tree → Prop} {pass : Pass} {tree : Tree}

theorem radicands_iff : Radicands Q tree ↔
    (∀ radicand index, tree = .root radicand index → Q radicand) ∧
      ∀ child ∈ tree.children, Radicands Q child := by
  simp only [Radicands, nodes_eq tree, List.mem_cons, List.mem_flatMap]
  grind

theorem radicands_of_ne_root (other : ∀ radicand index, tree ≠ .root radicand index) :
    Radicands Q tree ↔ ∀ child ∈ tree.children, Radicands Q child := by
  rw [radicands_iff, and_iff_right]
  exact fun radicand index same => absurd same (other radicand index)

theorem radicands_operator (symbol : String) : Radicands Q (.operator symbol) := by
  simp [radicands_of_ne_root, children]

theorem radicands_of_isOperator {symbol : String} (found : tree.isOperator symbol = true) :
    Radicands Q tree :=
  eq_operator_of_isOperator found ▸ radicands_operator symbol

theorem radicands_unwrap : Radicands Q tree.unwrap ↔ Radicands Q tree := by
  unfold unwrap
  split <;> simp [radicands_of_ne_root, children]

theorem radicands_raise (base superscript : Tree) :
    Radicands Q (raise base superscript) ↔ Radicands Q base ∧ Radicands Q superscript := by
  unfold raise
  split <;> simp [radicands_of_ne_root, children, and_assoc]

theorem radicands_ofRow? (elements : List Tree) :
    (∀ tree ∈ ofRow? elements, Radicands Q tree) ↔ ∀ element ∈ elements, Radicands Q element := by
  unfold ofRow?
  split <;> simp [radicands_of_ne_root, children]

theorem radicands_collapse : Radicands Q tree.collapse ↔ Radicands Q tree := by
  unfold collapse
  split <;> simp [radicands_of_ne_root, children]

theorem radicands_bounds (contents : Option Tree) :
    (Radicands Q (bounds contents).1 ∧ ∀ upper ∈ (bounds contents).2, Radicands Q upper) ↔
      ∀ inner ∈ contents, Radicands Q inner := by
  unfold bounds
  split
  · simp [radicands_of_ne_root, children, emptyRow]
  · rename_i elements
    split
    · simp
    · rename_i dots upper found
      obtain ⟨range, cut⟩ := eq_append_of_cut found
      have whole : (∀ inner ∈ some (Tree.row elements), Radicands Q inner) ↔
          ∀ element ∈ elements.takeWhile (!·.isOperator Glyph.range) ++ dots :: upper,
            Radicands Q element := by
        rw [← cut]
        simp [radicands_of_ne_root, children]
      rw [ofRow?_getD, radicands_collapse, radicands_ofRow?, radicands_of_ne_root (by simp), whole]
      simp [children, radicands_of_isOperator range, or_imp, forall_and]
  · simp

theorem radicands_bound (target : Tree) (limits : Tree × Option Tree) :
    Radicands Q (bound target limits) ↔
      Radicands Q target ∧ Radicands Q limits.1 ∧ ∀ upper ∈ limits.2, Radicands Q upper := by
  unfold bound
  split <;> simp [radicands_of_ne_root, children]

theorem radicands_side (elements : List Tree) :
    Radicands Q (side elements) ↔ ∀ element ∈ elements, Radicands Q element := by
  unfold side ofCluster?
  split <;> simp [radicands_unwrap, radicands_of_ne_root, children, emptyRow]

theorem radicands_sideBySide (cells : List Tree) :
    Radicands Q (sideBySide cells) ↔ ∀ cell ∈ cells, Radicands Q cell := by
  unfold sideBySide
  split <;> simp [radicands_of_ne_root, children]

theorem Makes.radicands {block : List Tree} {made : Tree} (makes : Makes pass block made)
    (other : pass ≠ .roots) :
    Radicands Q made ↔ ∀ element ∈ block, Radicands Q element := by
  cases makes with
  | subscript script operand => simp [radicands_of_ne_root, children, radicands_unwrap]
  | blankBase script => simp [radicands_of_ne_root, children, radicands_unwrap]
  | numbered symbol numeral => simp [radicands_of_ne_root, children]
  | exponent script operand => simp [radicands_raise, radicands_unwrap, radicands_operator]
  | @bound target _ contents takes found =>
    obtain ⟨right, rfl⟩ := rangeContents?_eq_some found
    rw [radicands_bound, radicands_bounds]
    simp [radicands_of_ne_root, children]
  | root => contradiction
  | fraction found numerator denominator =>
    rw [radicands_of_ne_root (by simp)]
    simp [children, radicands_side, radicands_of_isOperator found, or_imp, forall_and]
  | primes count operand => simp [radicands_raise, Layout.primes, radicands_operator]
  | mark symbol operand => simp [radicands_raise]
  | @brace sign _ _ comment base signed rows =>
    obtain ⟨left, right, rfl⟩ := twoRows?_eq_some rows
    have bare : Radicands Q sign := by
      cases sign with
      | operator symbol => exact radicands_operator symbol
      | _ => cases signed
    simp [radicands_of_ne_root, children, radicands_sideBySide, bare, or_imp, forall_and, and_comm]

theorem Folds.radicands {elements folded : List Tree} (folds : Folds pass elements folded)
    (other : pass ≠ .roots) :
    (∀ element ∈ folded, Radicands Q element) ↔ ∀ element ∈ elements, Radicands Q element := by
  induction folds with
  | refl => rfl
  | tail _ replaces ih =>
    rw [← ih]
    cases replaces with
    | make front behind makes =>
      simp only [List.forall_mem_append, List.forall_mem_cons, makes.radicands other, and_assoc]

theorem radicands_visit (other : pass ≠ .roots) (tree : Tree) :
    Radicands Q (pass.visit tree) ↔ Radicands Q tree := by
  have row (elements : List Tree) : Radicands Q (.row elements) ↔ _ :=
    radicands_of_ne_root (by simp)
  have cluster (elements : List Tree) : Radicands Q (.cluster elements) ↔ _ :=
    radicands_of_ne_root (by simp)
  cases tree with
  | row elements =>
    obtain ⟨folded, visited, folds⟩ := folds_visit_row pass elements
    rw [visited, row, row]
    exact folds.radicands other
  | cluster elements =>
    by_cases product : pass = .invisibleProduct
    · subst product
      rw [Pass.visit, invisibleProduct, cluster, cluster]
      simp only [children, List.mem_filter]
      refine ⟨fun all element member => ?_, fun all element member => all element member.1⟩
      by_cases found : element.isOperator Glyph.invisibleProduct = true
      · exact radicands_of_isOperator found
      · exact all element ⟨member, by simpa using found⟩
    · by_cases meaning : pass = .operatorMeaning
      · subst meaning
        rw [Pass.visit]
        unfold operatorMeaning
        split
        · contradiction
        · rename_i same
          cases same
          simp [cluster, children, radicands_operator]
        · rfl
      · obtain ⟨folded, visited, folds⟩ := folds_visit_cluster product meaning elements
        rw [visited, cluster, cluster]
        exact folds.radicands other
  | operator symbol =>
    cases pass <;> exact iff_of_true (radicands_operator _) (radicands_operator _)
  | _ => cases pass <;> rfl

theorem root_mapChildren_iff {f : Tree → Tree}
    (stable : ∀ child ∈ tree.children, Q (f child) ↔ Q child) :
    (∀ radicand index, tree.mapChildren f = .root radicand index → Q radicand) ↔
      ∀ radicand index, tree = .root radicand index → Q radicand := by
  cases tree with
  | root radicand index => simp [mapChildren, stable radicand (by simp [children])]
  | _ => simp [mapChildren]

theorem radicands_apply_iff (other : pass ≠ .roots) (Inv : Tree → Prop)
    (kept : ∀ {tree}, Inv tree → ∀ child ∈ (pass.visit tree).collapse.children, Inv child)
    (stable : ∀ {tree}, Inv tree → (Q (pass.apply tree) ↔ Q tree)) {tree : Tree}
    (start : Inv tree) : Radicands Q (pass.apply tree) ↔ Radicands Q tree := by
  induction tree using pass.induct with
  | step tree ih =>
    have inside (child : Tree) (member : child ∈ (pass.visit tree).collapse.children) :
        Radicands Q (pass.apply child) ↔ Radicands Q child :=
      ih child member (kept start child member)
    rw [pass.apply_eq, radicands_iff,
      root_mapChildren_iff fun child member => stable (kept start child member),
      children_mapChildren, List.forall_mem_map, forall₂_congr inside, ← radicands_iff,
      radicands_collapse, radicands_visit other]

/-- No radical that makes a root has an operator to take, and no root is drawn over one. -/
def Based (tree : Tree) : Prop :=
  ∀ node, Kept tree node →
    (∀ elements, node.elements? = some elements → ¬Somewhere OpensBareRoot elements) ∧
      ∀ radicand index, node = .root radicand index → radicand.isOperand = true

theorem based_iff : Based tree ↔
    ((∀ elements, tree.elements? = some elements → ¬Somewhere OpensBareRoot elements) ∧
      ∀ radicand index, tree = .root radicand index → radicand.isOperand = true) ∧
      ∀ part ∈ keptParts tree, Based part := by
  constructor
  · intro based
    exact ⟨based tree .refl, fun part member node below => based node (.head member below)⟩
  · rintro ⟨here, parts⟩ node below
    rcases Relation.ReflTransGen.cases_head below with rfl | ⟨part, member, below⟩
    · exact here
    · exact parts part member node below

theorem based_of_elements {elements : List Tree} (found : tree.elements? = some elements) :
    Based tree ↔
      ¬Somewhere OpensBareRoot elements ∧ ∀ part ∈ keptElements elements, Based part := by
  rw [based_iff]
  cases tree with
  | row _ | cluster _ =>
    cases found
    simp [elements?, keptParts]
  | _ => cases found

theorem based_inner (inner : tree.elements? = none) : Based tree ↔
    (∀ radicand index, tree = .root radicand index → radicand.isOperand = true) ∧
      ∀ child ∈ tree.children, Based child := by
  rw [based_iff]
  simp [inner, keptParts]

theorem based_root (radicand : Tree) (index : Option Tree) : Based (.root radicand index) ↔
    radicand.isOperand = true ∧ Based radicand ∧ ∀ part ∈ index.toList, Based part := by
  rw [based_inner rfl]
  simp [children]

theorem based_unwrap : Based tree.unwrap ↔ Based tree := by
  unfold unwrap
  split
  · rename_i left right contents
    have bracket : Based (.bracketed left right (some contents)) ↔ _ := based_inner rfl
    simp [bracket, children]
  · rfl

theorem isOperand_unwrap_eq_false_iff : tree.unwrap.isOperand = false ↔
    (∃ symbol, tree = .operator symbol) ∨
      ∃ left right symbol, tree = .bracketed left right (some (.operator symbol)) := by
  cases tree with
  | bracketed left right contents =>
    cases contents with
    | none => simp [unwrap, isOperand]
    | some inner => cases inner <;> simp [unwrap, isOperand]
  | _ => simp [unwrap, isOperand]

theorem not_opensBareRoot {first : Tree} (other : radical? first = none) (rest : List Tree) :
    ¬OpensBareRoot (first :: rest) := by
  rintro (found | found) <;> simp [other] at *

theorem foldRoots_cons (first : Tree) (rest : List Tree) :
    foldRoots (first :: rest) = rootStep first (foldRoots rest) := rfl

theorem rootStep_of_not_radical {first : Tree} (other : radical? first = none) (done : List Tree) :
    rootStep first done = first :: done := by
  simp [rootStep, other]

theorem rootStep_of_radical {first : Tree} {index : Option Tree}
    (found : radical? first = some index) (radicand : Tree) (done : List Tree) :
    rootStep first (radicand :: done) = .root radicand.unwrap index :: done := by
  simp [rootStep, found]

theorem opensBareRoot_iff {first next radicand : Tree} {index : Option Tree}
    {behind done : List Tree} (found : radical? first = some index)
    (folded : foldRoots (next :: behind) = radicand :: done) :
    OpensBareRoot (first :: next :: behind) ↔ radicand.unwrap.isOperand = false := by
  have found : (radical? first).isSome = true := by simp [found]
  rw [foldRoots_cons] at folded
  rcases rootStep_cases next (foldRoots behind) with ⟨own, inner, rest, radical, more, made⟩ | kept
  · -- the radical behind takes something itself, so that its root is taken
    rw [made] at folded
    cases folded
    refine iff_of_false ?_ (by simp [unwrap, isOperand])
    rintro (_ | _)
    · rename_i symbol idle
      have last : behind = [] := idle (by by_contra other; simp [radical?, other] at radical)
      rw [last] at more
      cases more
    · cases radical
  · rw [kept] at folded
    cases folded
    rw [isOperand_unwrap_eq_false_iff]
    constructor
    · rintro (_ | _)
      · exact .inl ⟨_, rfl⟩
      · exact .inr ⟨_, _, _, rfl⟩
    · rintro (⟨symbol, rfl⟩ | ⟨left, right, symbol, rfl⟩)
      · refine .operator found symbol behind fun same => ?_
        by_contra nonempty
        obtain ⟨head, tail, more⟩ := List.exists_cons_of_ne_nil (foldRoots_ne_nil nonempty)
        have radical : radical? (.operator symbol) = some none := by simp [radical?, same]
        rw [more, rootStep_of_radical radical] at kept
        cases kept
      · exact .bracketed found left right symbol behind

theorem forall_based_foldRoots (elements : List Tree) :
    (∀ element ∈ foldRoots elements, Based element) ↔
      ¬Somewhere OpensBareRoot elements ∧ ∀ element ∈ keptElements elements, Based element := by
  have nothing : ¬Somewhere OpensBareRoot [] := somewhere_nil (by rintro ⟨⟩)
  induction elements with
  | nil => simp [foldRoots, keptElements, nothing]
  | cons first rest ih =>
    rw [foldRoots_cons, somewhere_cons]
    cases rest with
    | nil =>
      have alone : ¬OpensBareRoot [first] := by rintro ⟨⟩
      simp [foldRoots, rootStep, keptElements, nothing, alone]
    | cons next behind =>
      cases found : radical? first with
      | none =>
        have kept := not_opensBareRoot found (next :: behind)
        rw [rootStep_of_not_radical found, List.forall_mem_cons]
        simp only [keptElements, found, Option.getD_none, Option.toList_some, List.singleton_append,
          List.forall_mem_cons, not_or]
        tauto
      | some index =>
        obtain ⟨radicand, done, folded⟩ :=
          List.exists_cons_of_ne_nil (foldRoots_ne_nil (List.cons_ne_nil next behind))
        rw [folded, List.forall_mem_cons] at ih
        rw [opensBareRoot_iff found folded, folded, rootStep_of_radical found,
          List.forall_mem_cons, based_root, based_unwrap]
        simp only [keptElements, found, Option.getD_some, List.forall_mem_append, not_or,
          Bool.not_eq_false]
        tauto

theorem based_visit (firm : Firm tree) :
    ((∀ radicand index, (Pass.roots.visit tree).collapse = .root radicand index →
        radicand.isOperand = true) ∧
      ∀ child ∈ (Pass.roots.visit tree).collapse.children, Based child) ↔ Based tree := by
  cases sequence : tree.elements? with
  | none =>
    have same : Pass.roots.visit tree = tree := by
      cases tree with
      | row _ | cluster _ => cases sequence
      | _ => rfl
    rw [same, firm.collapse_eq, ← based_inner sequence]
  | some elements =>
    obtain ⟨visited, folded⟩ : (Pass.roots.visit tree).elements? = some (foldRoots elements) ∧
        (Pass.roots.visit tree).children = foldRoots elements := by
      cases tree with
      | row _ | cluster _ =>
        cases sequence
        exact ⟨rfl, rfl⟩
      | _ => cases sequence
    rw [based_of_elements sequence, ← forall_based_foldRoots]
    rcases collapse_cases (Pass.roots.visit tree) with same | ⟨only, found, single⟩
    · rw [same, folded, and_iff_right]
      intro radicand index root
      rw [root] at visited
      cases visited
    · have alone : foldRoots elements = [only] := Option.some.inj (visited.symm.trans found)
      have folds := folds_foldRoots elements
      rw [alone] at folds
      rcases folds.single with whole | ⟨block, makes⟩
      · exact absurd (congrArg List.length whole) (firm.several sequence)
      · rw [single, alone, ← based_inner (inner_of_isMade makes.isMade).1]
        simp

theorem radicands_roots_iff {tree : Tree} (firm : Firm tree) :
    Radicands (·.isOperand = true) (Pass.roots.apply tree) ↔ Based tree := by
  induction tree using Pass.roots.induct with
  | step tree ih =>
    have firm' : Firm (Pass.roots.visit tree).collapse := firm.collapse_visit (by decide)
    have inside (child : Tree) (member : child ∈ (Pass.roots.visit tree).collapse.children) :
        Radicands (·.isOperand = true) (Pass.roots.apply child) ↔ Based child :=
      ih child member (firm'.child member)
    rw [Pass.apply_eq, radicands_iff, root_mapChildren_iff, children_mapChildren,
      List.forall_mem_map, forall₂_congr inside, based_visit firm]
    exact fun child member => by rw [isOperand_apply (by decide) (firm'.child member)]

theorem radicands_radical? {index : Option Tree} (found : radical? tree = some index)
    (all : Radicands Q tree) : ∀ part ∈ index.toList, Radicands Q part := by
  unfold radical? at found
  split at found
  · split at found <;> cases found
    simp
  · split at found <;> cases found
    rw [radicands_of_ne_root (by simp), children, List.forall_mem_cons] at all
    simpa using all.1
  · cases found

theorem radicands_keptElements {elements : List Tree}
    (all : ∀ element ∈ elements, Radicands Q element) :
    ∀ part ∈ keptElements elements, Radicands Q part := by
  fun_induction keptElements elements with
  | case1 => exact all
  | case2 => exact all
  | case3 first second rest ih =>
    obtain ⟨here, behind⟩ := List.forall_mem_cons.mp all
    refine List.forall_mem_append.mpr ⟨?_, ih behind⟩
    cases found : radical? first with
    | none => simpa using here
    | some index => exact radicands_radical? found here

theorem radicands_keptParts (all : Radicands Q tree) :
    ∀ part ∈ keptParts tree, Radicands Q part := by
  have children := (radicands_iff.mp all).2
  cases tree with
  | row _ | cluster _ => exact radicands_keptElements children
  | _ => exact children

theorem Kept.radicands {node : Tree} (kept : Kept tree node) (all : Radicands Q tree) :
    Radicands Q node := by
  induction kept with
  | refl => exact all
  | tail _ member ih => exact radicands_keptParts ih _ member

theorem based_iff_of_rootless (rootless : Radicands (fun _ => False) tree) : Based tree ↔
    ∀ node elements, Kept tree node → node.elements? = some elements →
      ¬Somewhere OpensBareRoot elements := by
  constructor
  · exact fun based node elements kept found => (based node kept).1 elements found
  · refine fun nowhere node kept => ⟨fun elements => nowhere node elements kept, ?_⟩
    rintro radicand index rfl
    exact (kept.radicands rootless radicand index (mem_nodes_self _)).elim

theorem builds_rootless : Grammar.Builds (Radicands fun _ => False) where
  leaf reader listed {input leaf length} found := by
    obtain ⟨text, own, _⟩ := Lexeme.leafText?_of_reader listed found
    cases leaf with
    | identifier _ | operator _ | text _ | number _ => simp [radicands_of_ne_root, children]
    | _ => cases own
  cluster _ _ flat all := (radicands_of_ne_root (by simp)).mpr all
  row _ all := (radicands_of_ne_root (by simp)).mpr all
  grid _ _ all := by
    refine (radicands_of_ne_root (by simp)).mpr fun child member => ?_
    obtain ⟨cells, row, place⟩ := List.mem_flatten.mp member
    exact (all cells row).2 child place
  bracketed _ _ inside := (radicands_of_ne_root (by simp)).mpr fun child member =>
    (inside child (Option.mem_toList.mp member)).1

theorem rootless_parse (source : String) : Radicands (fun _ => False) (parse source) := by
  rcases parse_builds builds_rootless source with empty | rootless
  · rw [empty]
    simp [radicands_of_ne_root, emptyGrid, children]
  · exact rootless

theorem rootless_stage (source : String) :
    Radicands (fun _ => False) (stage 4 (parse source)) := by
  have step {pass : Pass} (other : pass ≠ .roots) (tree : Tree) :
      Radicands (fun _ => False) (pass.apply tree) ↔ Radicands (fun _ => False) tree :=
    radicands_apply_iff other (fun _ => True) (fun _ _ _ => trivial) (fun _ => Iff.rfl) trivial
  change Radicands _ (Pass.ranges.apply (Pass.exponents.apply
    (Pass.subscripts.apply (Pass.invisibleProduct.apply (parse source)))))
  rw [step (by decide), step (by decide), step (by decide), step (by decide)]
  exact rootless_parse source

theorem radicands_layout_iff (source : String) :
    Radicands (·.isOperand = true) (parse source).layout ↔
      Radicands (·.isOperand = true) (stage 5 (parse source)) := by
  have step {count : Nat} {pass : Pass} (next : Pass.all[count + 1]? = some pass)
      (other : pass ≠ .roots) : Radicands (·.isOperand = true) (stage (count + 2) (parse source)) ↔
        Radicands (·.isOperand = true) (stage (count + 1) (parse source)) := by
    have product := (eq_of_next next).1
    rw [stage_succ next]
    refine radicands_apply_iff other Firm (fun firm _ => (firm.collapse_visit product).child)
      (fun firm => ?_) (firm_stage source count)
    rw [isOperand_apply product firm]
  change Radicands _ (stage 9 (parse source)) ↔ _
  rw [step rfl (by decide), step rfl (by decide), step rfl (by decide), step rfl (by decide)]

/-- For every source: all roots of the finished tree are drawn over operands, if and only if no
radical has an operator to take in front of the pass for roots, the fifth one, neither bare nor
alone in brackets. The upper bounds of radicals are left out, as the pass drops them. -/
theorem radicands_operands_iff (source : String) :
    (∀ radicand index, .root radicand index ∈ (parse source).layout.nodes →
      radicand.isOperand = true) ↔
      ∀ node elements, Kept (stage 4 (parse source)) node → node.elements? = some elements →
        ¬Somewhere OpensBareRoot elements :=
  calc Radicands (·.isOperand = true) (parse source).layout
    _ ↔ Radicands (·.isOperand = true) (Pass.roots.apply (stage 4 (parse source))) :=
      radicands_layout_iff source
    _ ↔ Based (stage 4 (parse source)) := radicands_roots_iff (firm_stage source 3)
    _ ↔ _ := based_iff_of_rootless (rootless_stage source)

theorem root_of_plus :
    ¬∀ radicand index, .root radicand index ∈ (parse "sqrt+x").layout.nodes →
      radicand.isOperand = true := by
  have drawn : (parse "sqrt+x").layout =
      .cluster [.root (.operator Glyph.plus) none, .identifier "x"] := by
    decide +kernel
  rw [drawn]
  intro operands
  have member : Tree.root (.operator Glyph.plus) none ∈
      (Tree.cluster [.root (.operator Glyph.plus) none, .identifier "x"]).nodes :=
    mem_nodes_of_mem_children (mem_nodes_self _) List.mem_cons_self
  cases operands _ _ member

end PlainMath.Layout
