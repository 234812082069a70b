import PlainMath.Layout.Pass
import PlainMath.Proofs.Tree.Built

/-! What the folds leave intact. A fold turns the elements of a row or a cluster into
fewer and larger ones, and never into none. If a property of single nodes holds of
everything that the folds put together, it holds throughout their outcome. -/
namespace PlainMath.Layout
open PlainMath.Tree

/-- The property holds of every node that a fold makes, and it does not look below the node. -/
structure Foldable (L : Tree → Prop) : Prop where
  map : ∀ {f tree}, L tree → L (tree.mapChildren f)
  blank : L (.identifier "")
  superscriptSign : L (.operator Glyph.superscript)
  logicalNot : L (.operator Glyph.logicalNot)
  leftover : ∀ {symbol}, L (.operator symbol) → L (.operator (leftover symbol))
  primes : ∀ count, L (primes count)
  row : ∀ {elements}, 2 ≤ elements.length → L (.row elements)
  cluster : ∀ {elements}, 2 ≤ elements.length → L (.cluster elements)
  fraction : ∀ {numerator denominator}, L (.fraction numerator denominator)
  scripted : ∀ {base subscript superscript}, (subscript.isSome ∨ superscript.isSome) →
    L (.scripted base subscript superscript)
  root : ∀ {radicand index}, L (.root radicand index)
  limits : ∀ {symbol lower upper}, L (.operator symbol) → L (.limits symbol lower upper)
  stackedLimits : ∀ {base lower upper}, L (.stackedLimits base lower upper)
  brace : ∀ {side base comment}, L (.brace side base comment)
  sideBySide : ∀ {rows}, L (.grid rows) → ∀ cells ∈ rows, cells.length ≠ 1 → L (.row cells)

variable {L : Tree → Prop} (law : Foldable L)
include law

theorem built_ofRow? {elements : List Tree} (all : ∀ element ∈ elements, Built L element) :
    ∀ tree ∈ ofRow? elements, Built L tree := by
  intro tree found
  rcases ofRow?_eq_some found with single | ⟨several, rfl⟩
  · exact all tree (by simp [single])
  · exact .node (law.row several) all (by simp [slots])

theorem built_ofCluster? {elements : List Tree} (all : ∀ element ∈ elements, Built L element) :
    ∀ tree ∈ ofCluster? elements, Built L tree := by
  intro tree found
  rcases ofCluster?_eq_some found with single | ⟨several, rfl⟩
  · exact all tree (by simp [single])
  · exact .node (law.cluster several) all (by simp [slots])

theorem built_scripted {base : Tree} {subscript superscript : Option Tree}
    (there : subscript.isSome ∨ superscript.isSome) (below : Built L base)
    (sub : ∀ script ∈ subscript, script ≠ emptyRow → Built L script)
    (super : ∀ script ∈ superscript, Built L script) :
    Built L (.scripted base subscript superscript) := by
  refine .node (law.scripted there) ?_ (by simpa [slots] using sub)
  intro part member
  rcases List.mem_cons.mp member with rfl | member
  · exact below
  · exact super part (Option.mem_toList.mp member)

theorem built_raise {base superscript : Tree} (below : Built L base)
    (script : Built L superscript) : Built L (raise base superscript) := by
  unfold raise
  split
  · rename_i inner subscript
    refine built_scripted law (.inr rfl) (below.part inner (by simp [parts])) ?_ (by simpa)
    exact fun script member => below.slot script (by simpa [slots] using member.symm)
  · exact built_scripted law (.inr rfl) below (by simp) (by simpa)

structure ScriptRule.Keeps (rule : ScriptRule) (L : Tree → Prop) : Prop where
  attach : ∀ {base script}, Built L base → Built L script → Built L (rule.attach base script)
  detached : ∀ {script}, Built L script → ∀ element ∈ rule.detached script, Built L element
  detached_ne_nil : ∀ script, rule.detached script ≠ []

theorem subscriptRule_keeps : subscriptRule.Keeps L where
  attach below script :=
    built_scripted law (.inl rfl) below (by simpa using fun _ => script.unwrap) (by simp)
  detached script element member := by
    rw [List.mem_singleton.mp member]
    exact built_scripted law (.inl rfl) (.leaf law.blank rfl)
      (by simpa using fun _ => script.unwrap) (by simp)
  detached_ne_nil _ := by simp [subscriptRule]

theorem exponentRule_keeps : exponentRule.Keeps L where
  attach below script := built_raise law below script.unwrap
  detached script element member := by
    simp only [exponentRule, List.mem_cons, List.not_mem_nil, or_false] at member
    rcases member with rfl | rfl
    · exact .leaf law.superscriptSign rfl
    · exact script
  detached_ne_nil _ := by simp [exponentRule]

omit law

def Scan.All (L : Tree → Prop) (scan : Scan) : Prop :=
  (∀ script ∈ scan.waiting, Built L script) ∧ ∀ element ∈ scan.done, Built L element

variable {rule : ScriptRule} (keeps : rule.Keeps L)

theorem all_enter {element : Tree} {done : List Tree} (built : Built L element)
    (all : ∀ element ∈ done, Built L element) : (rule.enter element done).All L := by
  unfold ScriptRule.enter
  split
  · split
    · exact ⟨by simp, by simpa using built⟩
    · rename_i script done
      exact ⟨by simpa using all script (by simp),
        fun element member => all element (List.mem_cons_of_mem _ member)⟩
  · exact ⟨by simp, List.forall_mem_cons.mpr ⟨built, all⟩⟩

include keeps in
theorem all_step {element : Tree} {scan : Scan} (built : Built L element) (all : scan.All L) :
    (rule.step element scan).All L := by
  unfold ScriptRule.step
  split
  · exact all_enter built all.2
  · rename_i script waiting
    have script := all.1 script waiting
    split
    · exact ⟨by simp, List.forall_mem_cons.mpr ⟨keeps.attach built script, all.2⟩⟩
    · exact all_enter built (List.forall_mem_append.mpr ⟨keeps.detached script, all.2⟩)

include keeps in
theorem all_fold {elements : List Tree} (all : ∀ element ∈ elements, Built L element) :
    ∀ element ∈ rule.fold elements, Built L element := by
  have scanned : (elements.foldr rule.step ⟨none, []⟩).All L := by
    induction elements with
    | nil => exact ⟨by simp, by simp⟩
    | cons element elements ih =>
      obtain ⟨built, rest⟩ := List.forall_mem_cons.mp all
      exact all_step keeps built (ih rest)
  unfold ScriptRule.fold ScriptRule.close
  split
  · exact scanned.2
  · rename_i script waiting
    exact List.forall_mem_append.mpr ⟨keeps.detached (scanned.1 script waiting), scanned.2⟩

theorem step_leaves (rule : ScriptRule) (element : Tree) (scan : Scan) :
    (rule.step element scan).waiting.isSome ∨ (rule.step element scan).done ≠ [] := by
  have entered (done : List Tree) :
      (rule.enter element done).waiting.isSome ∨ (rule.enter element done).done ≠ [] := by
    unfold ScriptRule.enter
    split
    · split <;> simp
    · simp
  unfold ScriptRule.step
  split
  · exact entered _
  · split
    · simp
    · exact entered _

include keeps in
theorem fold_ne_nil {elements : List Tree} (nonempty : elements ≠ []) :
    rule.fold elements ≠ [] := by
  match elements with
  | [] => exact absurd rfl nonempty
  | element :: elements =>
    have leaves := step_leaves rule element (elements.foldr rule.step ⟨none, []⟩)
    unfold ScriptRule.fold ScriptRule.close
    rw [List.foldr_cons]
    split
    · rename_i idle
      rw [idle] at leaves
      simpa using leaves
    · rename_i script _
      simp [keeps.detached_ne_nil script]

include law in
theorem all_implicitSubscripts {elements : List Tree}
    (all : ∀ element ∈ elements, Built L element) :
    ∀ element ∈ implicitSubscripts elements, Built L element := by
  fun_induction implicitSubscripts elements with
  | case1 symbol numeral rest ih =>
    obtain ⟨base, all⟩ := List.forall_mem_cons.mp all
    obtain ⟨script, rest⟩ := List.forall_mem_cons.mp all
    refine List.forall_mem_cons.mpr ⟨?_, ih rest⟩
    exact built_scripted law (.inl rfl) base (by simpa using fun _ => script) (by simp)
  | case2 element rest _ ih =>
    obtain ⟨first, rest⟩ := List.forall_mem_cons.mp all
    exact List.forall_mem_cons.mpr ⟨first, ih rest⟩
  | case3 => simp

theorem implicitSubscripts_ne_nil {elements : List Tree} (nonempty : elements ≠ []) :
    implicitSubscripts elements ≠ [] := by
  fun_cases implicitSubscripts elements <;> simp_all

include law

theorem built_bounds {contents : Option Tree} (inside : ∀ inner ∈ contents, Built L inner) :
    ((bounds contents).1 ≠ emptyRow → Built L (bounds contents).1) ∧
      ∀ upper ∈ (bounds contents).2, Built L upper := by
  unfold bounds
  split
  · simp
  · rename_i elements
    have whole : Built L (.row elements) := inside _ rfl
    have all : ∀ element ∈ elements, Built L element := whole.part
    split
    · exact ⟨fun _ => whole, by simp⟩
    · rename_i dots upper found
      have within : dots :: upper ⊆ elements := found ▸ (List.dropWhile_sublist _).subset
      have behind : ∀ element ∈ upper, Built L element := fun element member =>
        all element (within (List.mem_cons_of_mem _ member))
      have before : ∀ element ∈ elements.takeWhile (!·.isOperator Glyph.range), Built L element :=
        fun element member => all element ((List.takeWhile_sublist _).subset member)
      refine ⟨?_, built_ofRow? law behind⟩
      cases lower : ofRow? (elements.takeWhile (!·.isOperator Glyph.range)) with
      | none => exact fun there => absurd rfl there
      | some tree => exact fun _ => built_ofRow? law before tree lower
  · rename_i other _
    exact ⟨fun _ => inside other rfl, by simp⟩

theorem built_bound {target : Tree} {bounds : Tree × Option Tree} (built : Built L target)
    (lower : bounds.1 ≠ emptyRow → Built L bounds.1) (upper : ∀ upper ∈ bounds.2, Built L upper) :
    Built L (bound target bounds) := by
  have stacked : Built L (.stackedLimits target bounds.1 bounds.2) := by
    refine .node law.stackedLimits ?_ (by simpa [slots] using lower)
    intro part member
    rcases List.mem_cons.mp member with rfl | member
    · exact built
    · exact upper part (Option.mem_toList.mp member)
  unfold bound
  split
  · exact .node (law.limits built.here) (by simpa [parts] using upper) (by simpa [slots] using lower)
  · exact stacked
  · exact stacked
  · exact built_scripted law (.inl rfl) built (by simpa using lower) upper

theorem all_foldRanges {target : Tree} {rest : List Tree} (built : Built L target)
    (all : ∀ element ∈ rest, Built L element) :
    ∀ element ∈ foldRanges target rest, Built L element := by
  induction rest generalizing target with
  | nil => simpa [foldRanges] using built
  | cons next rest ih =>
    obtain ⟨first, rest⟩ := List.forall_mem_cons.mp all
    have kept := List.forall_mem_cons.mpr ⟨built, ih first rest⟩
    unfold foldRanges
    split
    · rename_i contents found
      split
      · refine ih ?_ rest
        have inside : ∀ inner ∈ contents, Built L inner := by
          unfold rangeContents? at found
          split at found
          · split at found
            · cases found
              simpa [parts, children] using first.part
            · cases found
          · cases found
        obtain ⟨lower, upper⟩ := built_bounds law inside
        exact built_bound law built lower upper
      · exact kept
    · exact kept

omit law in
theorem foldRanges_ne_nil (target : Tree) (rest : List Tree) : foldRanges target rest ≠ [] := by
  induction rest generalizing target with
  | nil => simp [foldRanges]
  | cons next rest ih =>
    unfold foldRanges
    split
    · split
      · exact ih _
      · simp
    · simp

theorem all_foldRoots {elements : List Tree} (all : ∀ element ∈ elements, Built L element) :
    ∀ element ∈ foldRoots elements, Built L element := by
  induction elements with
  | nil => simp [foldRoots]
  | cons element elements ih =>
    obtain ⟨built, rest⟩ := List.forall_mem_cons.mp all
    have done := ih rest
    change ∀ tree ∈ rootStep element (foldRoots elements), Built L tree
    unfold rootStep
    split
    · rename_i index radicand rest found behind
      rw [behind] at done
      obtain ⟨inner, rest⟩ := List.forall_mem_cons.mp done
      refine List.forall_mem_cons.mpr ⟨?_, rest⟩
      refine .node law.root (by simpa [parts] using inner.unwrap) ?_
      unfold radical? at found
      split at found
      · split at found <;> cases found
        simp [slots]
      · split at found <;> cases found
        simpa [slots] using built.slot
      · cases found
    · exact List.forall_mem_cons.mpr ⟨built, done⟩

omit law in
theorem foldRoots_ne_nil {elements : List Tree} (nonempty : elements ≠ []) :
    foldRoots elements ≠ [] := by
  match elements with
  | [] => exact absurd rfl nonempty
  | element :: elements =>
    change rootStep element (foldRoots elements) ≠ []
    unfold rootStep
    split <;> simp

theorem built_side {elements : List Tree} (nonempty : elements ≠ [])
    (all : ∀ element ∈ elements, Built L element) : Built L (side elements) := by
  have whole := ofCluster?_eq_collapse nonempty
  unfold side
  rw [whole]
  exact (built_ofCluster? law all _ whole).unwrap

theorem all_foldFraction {elements : List Tree} (all : ∀ element ∈ elements, Built L element) :
    ∀ element ∈ foldFraction elements, Built L element := by
  unfold foldFraction
  split
  · rename_i before behind found
    unfold cutAtBar? at found
    split at found
    · cases found
    · rename_i first rest
      obtain ⟨built, others⟩ := List.forall_mem_cons.mp all
      split at found
      · rename_i bar next behind found'
        cases found
        have left : Built L (side (first :: rest.takeWhile (!·.isOperator Glyph.fractionBar))) :=
          built_side law (by simp) (List.forall_mem_cons.mpr ⟨built, fun element member =>
            others element ((List.takeWhile_sublist _).subset member)⟩)
        have within : bar :: next :: behind ⊆ rest := found' ▸ (List.dropWhile_sublist _).subset
        have right : Built L (side (next :: behind)) :=
          built_side law (by simp) fun element member =>
            others element (within (List.mem_cons_of_mem _ member))
        simpa using Built.node law.fraction (by simpa [Tree.parts, children] using ⟨left, right⟩)
          (by simp [slots])
      · cases found
  · exact all

omit law in
theorem foldFraction_ne_nil {elements : List Tree} (nonempty : elements ≠ []) :
    foldFraction elements ≠ [] := by
  unfold foldFraction
  split
  · simp
  · exact nonempty

theorem built_raisePrimes {base : Tree} (built : Built L base) (count : Nat) :
    Built L (raisePrimes base count) := by
  unfold raisePrimes
  split
  · exact built
  · exact built_raise law built (.leaf (law.primes count) rfl)

theorem all_foldMarks {target : Tree} {rest : List Tree} (built : Built L target)
    (all : ∀ element ∈ rest, Built L element) (count : Nat) :
    ∀ element ∈ foldMarks target count rest, Built L element := by
  induction rest generalizing target count with
  | nil => simpa [foldMarks] using built_raisePrimes law built count
  | cons next rest ih =>
    obtain ⟨first, rest⟩ := List.forall_mem_cons.mp all
    have raised := built_raisePrimes law built count
    unfold foldMarks
    split
    · exact ih built rest (count + 1)
    · dsimp only
      split
      · simpa using built_raise law raised first
      · exact List.forall_mem_cons.mpr ⟨raised, ih first rest 0⟩

omit law in
theorem foldMarks_ne_nil (target : Tree) (count : Nat) (rest : List Tree) :
    foldMarks target count rest ≠ [] := by
  induction rest generalizing target count with
  | nil => simp [foldMarks]
  | cons next rest ih =>
    unfold foldMarks
    split
    · exact ih target (count + 1)
    · dsimp only
      split <;> simp

theorem built_sideBySide {rows : List (List Tree)} (built : Built L (.grid rows))
    {cells : List Tree} (member : cells ∈ rows) : Built L (sideBySide cells) := by
  have all : ∀ cell ∈ cells, Built L cell := fun cell place =>
    built.part cell (List.mem_flatten_of_mem member place)
  unfold sideBySide
  split
  · rename_i only
    exact all only (by simp)
  · rename_i several
    refine .node (law.sideBySide built.here cells member fun single => ?_) all (by simp [slots])
    obtain ⟨only, alone⟩ := List.length_eq_one_iff.mp single
    exact several only alone

theorem built_twoRows? {bracket : Tree} {first second : List Tree} (built : Built L bracket)
    (found : twoRows? bracket = some (first, second)) :
    Built L (sideBySide first) ∧ Built L (sideBySide second) := by
  unfold twoRows? at found
  split at found
  · cases found
    have inner : Built L (.grid [first, second]) := built.part _ (by simp [parts, children])
    exact ⟨built_sideBySide law inner (by simp), built_sideBySide law inner (by simp)⟩
  · cases found

theorem all_foldBraces {elements : List Tree} (all : ∀ element ∈ elements, Built L element) :
    ∀ element ∈ foldBraces elements, Built L element := by
  induction elements with
  | nil => simp [foldBraces]
  | cons element elements ih =>
    obtain ⟨built, rest⟩ := List.forall_mem_cons.mp all
    have done := ih rest
    have kept := List.forall_mem_cons.mpr ⟨built, done⟩
    change ∀ tree ∈ braceStep element (foldBraces elements), Built L tree
    unfold braceStep
    split
    · rename_i side bracket rest _ behind
      rw [behind] at done
      obtain ⟨inner, rest⟩ := List.forall_mem_cons.mp done
      split
      · rename_i comment base found
        obtain ⟨comment, base⟩ := built_twoRows? law inner found
        refine List.forall_mem_cons.mpr ⟨?_, rest⟩
        exact .node law.brace (by simpa [parts, children] using ⟨base, comment⟩) (by simp [slots])
      · exact kept
    · exact kept

omit law in
theorem foldBraces_ne_nil {elements : List Tree} (nonempty : elements ≠ []) :
    foldBraces elements ≠ [] := by
  match elements with
  | [] => exact absurd rfl nonempty
  | element :: elements =>
    change braceStep element (foldBraces elements) ≠ []
    unfold braceStep
    split
    · split <;> simp
    · simp

end PlainMath.Layout
