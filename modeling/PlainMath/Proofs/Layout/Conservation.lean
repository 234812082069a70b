import PlainMath.Layout.Pass
import PlainMath.Proofs.Tree.Built

/-! Layout conserves what a formula says: numbers, texts and identifiers. A fold may take
off brackets and drop operators, but the leaves with a content of their own stay, and they
stay in their order. Two passes turn something round: a root has its index behind its
radicand, and a brace has its comment behind its base. -/
namespace PlainMath.Tree

/-- A leaf with a content of its own: a number, a text, or an identifier that is not blank. -/
def isContent : Tree → Bool
  | .number _ => true
  | .text _ => true
  | .identifier symbol => symbol != ""
  | _ => false

def content (tree : Tree) : List Tree := tree.nodes.filter isContent

theorem content_eq (tree : Tree) :
    tree.content = (if tree.isContent then [tree] else []) ++ tree.children.flatMap content := by
  unfold content
  rw [nodes_eq, List.filter_cons, List.filter_flatMap]
  split <;> rfl

theorem content_of_inner {tree : Tree} (inner : tree.isContent = false) :
    tree.content = tree.children.flatMap content := by
  rw [content_eq, inner]
  rfl

@[simp] theorem content_operator (symbol : String) : (operator symbol).content = [] :=
  content_of_inner rfl

@[simp] theorem content_grid (rows : List (List Tree)) :
    (grid rows).content = rows.flatten.flatMap content := content_of_inner rfl

@[simp] theorem content_row (elements : List Tree) :
    (row elements).content = elements.flatMap content := content_of_inner rfl

@[simp] theorem content_cluster (elements : List Tree) :
    (cluster elements).content = elements.flatMap content := content_of_inner rfl

@[simp] theorem content_bracketed (left right : String) (contents : Option Tree) :
    (bracketed left right contents).content = contents.toList.flatMap content :=
  content_of_inner rfl

@[simp] theorem content_scripted (base : Tree) (subscript superscript : Option Tree) :
    (scripted base subscript superscript).content =
      base.content ++ (subscript.toList.flatMap content ++ superscript.toList.flatMap content) := by
  rw [content_of_inner rfl, children, List.flatMap_cons, List.flatMap_append]

@[simp] theorem content_fraction (numerator denominator : Tree) :
    (fraction numerator denominator).content = numerator.content ++ denominator.content := by
  rw [content_of_inner rfl, children, List.flatMap_cons, List.flatMap_singleton]

@[simp] theorem content_root (radicand : Tree) (index : Option Tree) :
    (root radicand index).content = radicand.content ++ index.toList.flatMap content :=
  content_of_inner rfl

@[simp] theorem content_limits (glyph : String) (lower : Tree) (upper : Option Tree) :
    (limits glyph lower upper).content = lower.content ++ upper.toList.flatMap content :=
  content_of_inner rfl

@[simp] theorem content_stackedLimits (base lower : Tree) (upper : Option Tree) :
    (stackedLimits base lower upper).content =
      base.content ++ (lower.content ++ upper.toList.flatMap content) :=
  content_of_inner rfl

@[simp] theorem content_brace (side : Side) (base comment : Tree) :
    (brace side base comment).content = base.content ++ comment.content := by
  rw [content_of_inner rfl, children, List.flatMap_cons, List.flatMap_singleton]

@[simp] theorem content_unwrap (tree : Tree) : tree.unwrap.content = tree.content := by
  unfold unwrap
  split <;> simp

@[simp] theorem content_collapse (tree : Tree) : tree.collapse.content = tree.content := by
  unfold collapse
  split <;> simp

theorem content_of_isOperator {tree : Tree} {symbol : String}
    (found : tree.isOperator symbol = true) : tree.content = [] := by
  unfold isOperator at found
  split at found
  · simp
  · cases found

end PlainMath.Tree

namespace PlainMath.Layout
open PlainMath.Tree

@[simp] theorem content_raise (base superscript : Tree) :
    (raise base superscript).content = base.content ++ superscript.content := by
  unfold raise
  split <;> simp

structure ScriptRule.Conserves (rule : ScriptRule) : Prop where
  attach : ∀ base script, (rule.attach base script).content = base.content ++ script.content
  detached : ∀ script, (rule.detached script).flatMap content = script.content

theorem subscriptRule_conserves : subscriptRule.Conserves where
  attach base script := by simp [subscriptRule]
  detached script := by simp [subscriptRule, content_eq (.identifier ""), isContent, children]

theorem exponentRule_conserves : exponentRule.Conserves where
  attach base script := by simp [exponentRule]
  detached script := by simp [exponentRule]

def Scan.content (scan : Scan) : List Tree :=
  scan.waiting.toList.flatMap Tree.content ++ scan.done.flatMap Tree.content

section
variable {rule : ScriptRule} (conserves : rule.Conserves)

theorem content_enter (rule : ScriptRule) (element : Tree) (done : List Tree) :
    (rule.enter element done).content = element.content ++ done.flatMap content := by
  unfold ScriptRule.enter
  split
  · rename_i sign
    have silent := content_of_isOperator sign
    split <;> simp [Scan.content, silent]
  · simp [Scan.content]

include conserves

theorem content_step (element : Tree) (scan : Scan) :
    (rule.step element scan).content = element.content ++ scan.content := by
  unfold ScriptRule.step
  split
  · rename_i idle
    rw [content_enter, Scan.content, idle]
    rfl
  · rename_i script waiting
    have whole : scan.content = script.content ++ scan.done.flatMap content := by
      simp [Scan.content, waiting]
    rw [whole]
    split
    · simp [Scan.content, conserves.attach]
    · rw [content_enter, List.flatMap_append, conserves.detached]

theorem flatMap_content_fold (elements : List Tree) :
    (rule.fold elements).flatMap content = elements.flatMap content := by
  have scanned : (elements.foldr rule.step ⟨none, []⟩).content = elements.flatMap content := by
    induction elements with
    | nil => rfl
    | cons element elements ih =>
      rw [List.foldr_cons, content_step conserves, ih, List.flatMap_cons]
  rw [← scanned]
  unfold ScriptRule.fold ScriptRule.close
  split
  · rename_i idle
    simp [Scan.content, idle]
  · rename_i script waiting
    simp [Scan.content, waiting, conserves.detached]

end

theorem flatMap_content_implicitSubscripts (elements : List Tree) :
    (implicitSubscripts elements).flatMap content = elements.flatMap content := by
  fun_induction implicitSubscripts elements with
  | case1 symbol numeral rest ih => simp [ih]
  | case2 element rest _ ih => simp [ih]
  | case3 => rfl

theorem flatMap_content_cut {symbol : String} {elements behind : List Tree} {cut : Tree}
    (found : elements.dropWhile (!·.isOperator symbol) = cut :: behind) :
    (elements.takeWhile (!·.isOperator symbol)).flatMap content ++ behind.flatMap content =
      elements.flatMap content := by
  have operator : (!cut.isOperator symbol) = false := by
    have first := List.head?_dropWhile_not (fun element : Tree => !element.isOperator symbol) elements
    rwa [found] at first
  have whole := List.takeWhile_append_dropWhile (p := fun element : Tree =>
    !element.isOperator symbol) (l := elements)
  rw [found] at whole
  calc (elements.takeWhile (!·.isOperator symbol)).flatMap content ++ behind.flatMap content
      = (elements.takeWhile (!·.isOperator symbol) ++ cut :: behind).flatMap content := by
        rw [List.flatMap_append, List.flatMap_cons, content_of_isOperator (by simpa using operator),
          List.nil_append]
    _ = elements.flatMap content := by rw [whole]

theorem content_bounds (contents : Option Tree) :
    (bounds contents).1.content ++ (bounds contents).2.toList.flatMap content =
      contents.toList.flatMap content := by
  unfold bounds
  split
  · simp [emptyRow]
  · rename_i elements
    split
    · simp
    · rename_i dots upper found
      have lower (lower : List Tree) :
          ((ofRow? lower).getD emptyRow).content = (ofRow? lower).toList.flatMap content := by
        cases ofRow? lower <;> simp [emptyRow]
      simp [lower, flatMap_ofRow? content_row, flatMap_content_cut found]
  · simp

@[simp] theorem content_bound (target : Tree) (bounds : Tree × Option Tree) :
    (bound target bounds).content =
      target.content ++ (bounds.1.content ++ bounds.2.toList.flatMap content) := by
  unfold bound
  split <;> simp

theorem content_rangeContents? {tree : Tree} {contents : Option Tree}
    (found : rangeContents? tree = some contents) :
    tree.content = contents.toList.flatMap content := by
  unfold rangeContents? at found
  split at found
  · split at found
    · cases found
      simp
    · cases found
  · cases found

theorem flatMap_content_foldRanges (target : Tree) (rest : List Tree) :
    (foldRanges target rest).flatMap content = target.content ++ rest.flatMap content := by
  induction rest generalizing target with
  | nil => simp [foldRanges]
  | cons next rest ih =>
    unfold foldRanges
    split
    · rename_i contents found
      split
      · rw [ih, content_bound, content_bounds, List.flatMap_cons, content_rangeContents? found,
          List.append_assoc]
      · rw [List.flatMap_cons, ih, List.flatMap_cons]
    · rw [List.flatMap_cons, ih, List.flatMap_cons]

theorem content_side (elements : List Tree) : (side elements).content = elements.flatMap content := by
  rw [← flatMap_ofCluster? content_cluster, side]
  cases ofCluster? elements <;> simp [emptyRow]

theorem flatMap_content_foldFraction (elements : List Tree) :
    (foldFraction elements).flatMap content = elements.flatMap content := by
  unfold foldFraction
  split
  · rename_i before behind found
    unfold cutAtBar? at found
    split at found
    · cases found
    · split at found
      · rename_i first rest bar next behind cut
        cases found
        rw [List.flatMap_singleton, content_fraction, content_side, content_side,
          List.flatMap_cons, List.append_assoc, flatMap_content_cut cut, List.flatMap_cons]
      · cases found
  · rfl

theorem flatMap_content_filter (symbol : String) (elements : List Tree) :
    (elements.filter (!·.isOperator symbol)).flatMap content = elements.flatMap content := by
  induction elements with
  | nil => rfl
  | cons element elements ih =>
    rw [List.filter_cons]
    split
    · rw [List.flatMap_cons, List.flatMap_cons, ih]
    · rename_i operator
      rw [List.flatMap_cons, content_of_isOperator (by simpa using operator), ih, List.nil_append]

@[simp] theorem content_raisePrimes (base : Tree) (count : Nat) :
    (raisePrimes base count).content = base.content := by
  unfold raisePrimes
  split
  · rfl
  · simp [primes]

theorem flatMap_content_foldMarks (target : Tree) (count : Nat) (rest : List Tree) :
    (foldMarks target count rest).flatMap content = target.content ++ rest.flatMap content := by
  induction rest generalizing target count with
  | nil => simp [foldMarks]
  | cons next rest ih =>
    unfold foldMarks
    split
    · rename_i prime
      rw [Bool.and_eq_true] at prime
      rw [ih, List.flatMap_cons, content_of_isOperator prime.2, List.nil_append]
    · dsimp only
      split
      · rename_i last
        simp only [Bool.and_eq_true, List.isEmpty_iff] at last
        simp [last.1.2]
      · rw [List.flatMap_cons, ih, content_raisePrimes, List.flatMap_cons]

theorem content_visit {pass : Pass} (noRoots : pass ≠ .roots) (noBraces : pass ≠ .braces)
    (tree : Tree) : (pass.visit tree).content = tree.content := by
  cases pass with
  | invisibleProduct =>
    simp only [Pass.visit, invisibleProduct]
    split
    · rw [content_cluster, flatMap_content_filter, content_cluster]
    · rfl
  | subscripts =>
    simp only [Pass.visit, subscripts]
    split
    · rw [content_cluster, flatMap_content_implicitSubscripts,
        flatMap_content_fold subscriptRule_conserves, content_cluster]
    · rfl
  | exponents =>
    simp only [Pass.visit, exponents]
    split
    · rw [content_cluster, flatMap_content_fold exponentRule_conserves, content_cluster]
    · rfl
  | ranges =>
    simp only [Pass.visit, ranges]
    split
    · rw [content_cluster, flatMap_content_foldRanges, content_cluster, List.flatMap_cons]
    · rfl
  | roots => exact absurd rfl noRoots
  | fractions =>
    simp only [Pass.visit, fractions]
    split
    · rw [content_row, flatMap_content_foldFraction, content_row]
    · rw [content_cluster, flatMap_content_foldFraction, content_cluster]
    · rfl
  | operatorMeaning =>
    simp only [Pass.visit, operatorMeaning]
    split <;> simp
  | operatorSuperscripts =>
    simp only [Pass.visit, operatorSuperscripts]
    split
    · rw [content_cluster, flatMap_content_foldMarks, content_cluster, List.flatMap_cons]
    · rfl
  | braces => exact absurd rfl noBraces

/-- No radical in the tree has an upper bound. A root would have no place for it. -/
def BoundedBelow (tree : Tree) : Prop :=
  ∀ node ∈ tree.nodes, ∀ lower upper, node ≠ .limits Glyph.radical lower (some upper)

theorem boundedBelow_iff {tree : Tree} : BoundedBelow tree ↔
    (∀ lower upper, tree ≠ .limits Glyph.radical lower (some upper)) ∧
      ∀ child ∈ tree.children, BoundedBelow child := by
  unfold BoundedBelow
  rw [nodes_eq, List.forall_mem_cons]
  simp only [List.mem_flatMap]
  grind

theorem content_radical? {tree : Tree} {index : Option Tree} (found : radical? tree = some index)
    (bounded : BoundedBelow tree) : tree.content = index.toList.flatMap content := by
  unfold radical? at found
  split at found
  · split at found <;> cases found
    simp
  · rename_i glyph lower upper
    split at found
    · rename_i radical
      cases found
      cases upper with
      | none => simp
      | some upper => exact ((boundedBelow_iff.mp bounded).1 lower upper (by rw [radical])).elim
    · cases found
  · cases found

theorem boundedBelow_radical? {tree lower : Tree} (found : radical? tree = some (some lower))
    (bounded : BoundedBelow tree) : BoundedBelow lower := by
  unfold radical? at found
  split at found
  · split at found <;> cases found
  · split at found
    · cases found
      exact (boundedBelow_iff.mp bounded).2 lower (by simp [children])
    · cases found
  · cases found

theorem boundedBelow_unwrap {tree : Tree} (bounded : BoundedBelow tree) :
    BoundedBelow tree.unwrap := by
  unfold unwrap
  split
  · exact (boundedBelow_iff.mp bounded).2 _ (by simp [children])
  · exact bounded

theorem boundedBelow_collapse {tree : Tree} (bounded : BoundedBelow tree) :
    BoundedBelow tree.collapse := by
  unfold collapse
  split
  · exact (boundedBelow_iff.mp bounded).2 _ (by simp [children])
  · exact (boundedBelow_iff.mp bounded).2 _ (by simp [children])
  · exact bounded

theorem boundedBelow_rootStep {element : Tree} {done : List Tree} (here : BoundedBelow element)
    (behind : ∀ tree ∈ done, BoundedBelow tree) :
    ∀ tree ∈ rootStep element done, BoundedBelow tree := by
  unfold rootStep
  split
  · rename_i index radicand rest found
    rw [List.forall_mem_cons] at behind ⊢
    refine ⟨boundedBelow_iff.mpr ⟨fun _ _ => nofun, fun child member => ?_⟩, behind.2⟩
    rcases List.mem_cons.mp member with rfl | member
    · exact boundedBelow_unwrap behind.1
    · rw [Option.mem_toList] at member
      subst member
      exact boundedBelow_radical? found here
  · exact List.forall_mem_cons.mpr ⟨here, behind⟩

theorem content_rootStep {element : Tree} (done : List Tree) (bounded : BoundedBelow element) :
    ((rootStep element done).flatMap content).Perm (element.content ++ done.flatMap content) := by
  unfold rootStep
  split
  · rename_i index radicand rest found
    rw [List.flatMap_cons, content_root, content_unwrap, content_radical? found bounded,
      List.flatMap_cons, List.append_assoc]
    exact List.perm_append_comm_assoc ..
  · rw [List.flatMap_cons]

theorem foldRoots_conserves {elements : List Tree}
    (bounded : ∀ element ∈ elements, BoundedBelow element) :
    (∀ tree ∈ foldRoots elements, BoundedBelow tree) ∧
      ((foldRoots elements).flatMap content).Perm (elements.flatMap content) := by
  induction elements with
  | nil => exact ⟨nofun, .refl _⟩
  | cons element elements ih =>
    rw [List.forall_mem_cons] at bounded
    obtain ⟨kept, conserved⟩ := ih bounded.2
    exact ⟨boundedBelow_rootStep bounded.1 kept,
      (content_rootStep _ bounded.1).trans (conserved.append_left _)⟩

theorem roots_conserves {tree : Tree} (bounded : BoundedBelow tree) :
    BoundedBelow (roots tree) ∧ (roots tree).content.Perm tree.content := by
  have inside := foldRoots_conserves (boundedBelow_iff.mp bounded).2
  unfold roots
  split
  · exact ⟨boundedBelow_iff.mpr ⟨fun _ _ => nofun, inside.1⟩, by simpa [children] using inside.2⟩
  · exact ⟨boundedBelow_iff.mpr ⟨fun _ _ => nofun, inside.1⟩, by simpa [children] using inside.2⟩
  · exact ⟨bounded, .refl _⟩

theorem content_sideBySide (cells : List Tree) :
    (sideBySide cells).content = cells.flatMap content := by
  unfold sideBySide
  split <;> simp

theorem content_twoRows? {tree : Tree} {first second : List Tree}
    (found : twoRows? tree = some (first, second)) :
    tree.content = first.flatMap content ++ second.flatMap content := by
  unfold twoRows? at found
  split at found
  · cases found
    simp
  · cases found

theorem content_braceSide? {tree : Tree} {side : Side} (found : braceSide? tree = some side) :
    tree.content = [] := by
  unfold braceSide? at found
  split at found
  · simp
  · cases found

theorem content_braceStep (element : Tree) (done : List Tree) :
    ((braceStep element done).flatMap content).Perm (element.content ++ done.flatMap content) := by
  unfold braceStep
  split
  · rename_i side bracket rest sign
    split
    · rename_i comment base found
      rw [List.flatMap_cons, content_brace, content_sideBySide, content_sideBySide,
        content_braceSide? sign, List.flatMap_cons, content_twoRows? found]
      exact List.perm_append_comm.append_right _
    · rw [List.flatMap_cons]
  · rw [List.flatMap_cons]

theorem content_braces (tree : Tree) : (braces tree).content.Perm tree.content := by
  have folded (elements : List Tree) :
      ((foldBraces elements).flatMap content).Perm (elements.flatMap content) := by
    induction elements with
    | nil => exact .refl _
    | cons element elements ih =>
      exact (content_braceStep element _).trans (ih.append_left _)
  unfold braces
  split
  · simpa using folded _
  · simpa using folded _
  · exact .refl _

structure Additive (R : List Tree → List Tree → Prop) : Prop where
  refl : ∀ content, R content content
  trans : ∀ {first second third}, R first second → R second third → R first third
  append : ∀ {first second first' second'}, R first first' → R second second' →
    R (first ++ second) (first' ++ second')

theorem additive_eq : Additive Eq := ⟨fun _ => rfl, Eq.trans, fun | rfl, rfl => rfl⟩

theorem additive_perm : Additive List.Perm := ⟨.refl, .trans, .append⟩

theorem Additive.flatMap {R : List Tree → List Tree → Prop} (additive : Additive R)
    {f g : Tree → List Tree} {elements : List Tree}
    (each : ∀ element ∈ elements, R (f element) (g element)) :
    R (elements.flatMap f) (elements.flatMap g) := by
  induction elements with
  | nil => exact additive.refl _
  | cons element elements ih =>
    rw [List.forall_mem_cons] at each
    exact additive.append each.1 (ih each.2)

theorem content_mapChildren (f : Tree → Tree) (tree : Tree) :
    (tree.mapChildren f).content =
      (if tree.isContent then [tree] else []) ++ tree.children.flatMap (fun child =>
        (f child).content) := by
  rw [content_eq, children_mapChildren, List.flatMap_map]
  cases tree <;> rfl

theorem Additive.content_apply {R : List Tree → List Tree → Prop} (additive : Additive R)
    (pass : Pass) {K : Tree → Prop}
    (parts : ∀ {tree}, K tree → ∀ child ∈ (pass.visit tree).collapse.children, K child)
    (visit : ∀ {tree}, K tree → R (pass.visit tree).content tree.content)
    (tree : Tree) (fit : K tree) : R (pass.apply tree).content tree.content := by
  induction tree using pass.induct with
  | step tree ih =>
    refine additive.trans ?_ (visit fit)
    rw [pass.apply_eq, content_mapChildren, ← content_collapse (pass.visit tree),
      content_eq (pass.visit tree).collapse]
    refine additive.append (additive.refl _) (additive.flatMap fun child member => ?_)
    exact ih child member (parts fit child member)

/-- Every pass conserves numbers, texts and identifiers, and only roots and braces change their
order. -/
theorem content_apply_conserved (pass : Pass) (tree : Tree)
    (bounded : pass = .roots → BoundedBelow tree) :
    (pass.apply tree).content.Perm tree.content ∧
      (pass ≠ .roots → pass ≠ .braces → (pass.apply tree).content = tree.content) := by
  have ordered (noRoots : pass ≠ .roots) (noBraces : pass ≠ .braces) :
      (pass.apply tree).content = tree.content :=
    additive_eq.content_apply pass (K := fun _ => True) (fun _ _ _ => trivial)
      (fun _ => content_visit noRoots noBraces _) tree trivial
  refine ⟨?_, ordered⟩
  by_cases roots : pass = .roots
  · subst roots
    refine additive_perm.content_apply .roots (K := BoundedBelow) (fun bounded => ?_)
      (fun bounded => (roots_conserves bounded).2) tree (bounded rfl)
    exact (boundedBelow_iff.mp (boundedBelow_collapse (roots_conserves bounded).1)).2
  · by_cases braces : pass = .braces
    · subst braces
      exact additive_perm.content_apply .braces (K := fun _ => True) (fun _ _ _ => trivial)
        (fun _ => content_braces _) tree trivial
    · rw [ordered roots braces]

theorem content_apply_roots_cube :
    let cube : Tree := .cluster [.limits Glyph.radical (.number "3") none,
      .bracketed "(" ")" (some (.identifier "x"))]
    BoundedBelow cube ∧ (Pass.roots.apply cube).content.Perm [.number "3", .identifier "x"] := by
  intro cube
  have bounded : BoundedBelow cube := by simp [cube, BoundedBelow, nodes_eq, children]
  have conserved := (content_apply_conserved .roots cube fun _ => bounded).1
  exact ⟨bounded, by simpa [cube, content_eq, isContent, children] using conserved⟩

end PlainMath.Layout
