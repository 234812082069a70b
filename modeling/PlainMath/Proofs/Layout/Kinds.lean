import PlainMath.Proofs.Layout.Finished
import PlainMath.Proofs.Layout.Replacing
import PlainMath.Proofs.Layout.Shape

/-! What becomes of the elements of rows and clusters when a pass goes over them. An element stays
of its kind, unless it is a row or a cluster that the pass folds into a single node. So a pass joins
no neighbours that were not joined before. -/
namespace PlainMath.Layout
open PlainMath.Tree

variable {pass : Pass} {tree : Tree}

def Firm (tree : Tree) : Prop := tree = emptyRow ∨ tree = emptyGrid ∨ Built Filled tree

namespace Firm

theorem several (firm : Firm tree) {elements : List Tree} (found : tree.elements? = some elements) :
    elements.length ≠ 1 := by
  rcases firm with rfl | rfl | built
  · cases found
    simp
  · cases found
  · have sized := built.here.sized
    cases tree with
    | row _ =>
      cases found
      exact sized
    | cluster _ =>
      cases found
      simp only [Sized] at sized
      omega
    | _ => cases found

theorem child (firm : Firm tree) {child : Tree} (member : child ∈ tree.children) : Firm child := by
  rcases firm with rfl | rfl | built
  · cases member
  · cases member
  · by_cases empty : child = emptyRow
    · exact .inl empty
    · rcases mem_children.mp member with part | slot
      · exact .inr (.inr (built.part child part))
      · exact .inr (.inr (built.slot child slot empty))

theorem collapse_visit (other : pass ≠ .invisibleProduct) (firm : Firm tree) :
    Firm (pass.visit tree).collapse := by
  rcases firm with rfl | rfl | built
  · cases pass <;> exact .inl rfl
  · cases pass <;> exact .inr (.inl rfl)
  · exact .inr (.inr (built_collapse_visit filled_foldable other built))

end Firm

theorem collapse_cases (tree : Tree) :
    tree.collapse = tree ∨ ∃ only, tree.elements? = some [only] ∧ tree.collapse = only := by
  unfold collapse
  split
  · exact .inr ⟨_, rfl, rfl⟩
  · exact .inr ⟨_, rfl, rfl⟩
  · exact .inl rfl

theorem collapse_visit_cases (other : pass ≠ .invisibleProduct) (firm : Firm tree) :
    (pass.visit tree).collapse = pass.visit tree ∨
      tree.elements?.isSome = true ∧ ∃ block, Makes pass block (pass.visit tree).collapse := by
  rcases collapse_cases (pass.visit tree) with same | ⟨only, found, single⟩
  · exact .inl same
  · rw [single]
    have folded {elements : List Tree} (folds : Folds pass elements [only])
        (here : tree.elements? = some elements) : ∃ block, Makes pass block only := by
      refine folds.single.resolve_left fun alone => firm.several here ?_
      rw [alone]
      rfl
    cases tree with
    | row elements =>
      obtain ⟨outcome, visited, folds⟩ := folds_visit_row pass elements
      rw [visited] at found
      cases found
      exact .inr ⟨rfl, folded folds rfl⟩
    | cluster elements =>
      by_cases meaning : pass = .operatorMeaning
      · subst meaning
        refine absurd ?_ (firm.several rfl)
        simp only [Pass.visit] at found
        unfold operatorMeaning at found
        split at found <;> simp_all [elements?]
      · obtain ⟨outcome, visited, folds⟩ := folds_visit_cluster other meaning elements
        rw [visited] at found
        cases found
        exact .inr ⟨rfl, folded folds rfl⟩
    | _ => cases pass <;> cases found

def Pass.relabel : Pass → String → String
  | .operatorMeaning, symbol => leftover symbol
  | _, symbol => symbol

theorem relabel_cases (pass : Pass) (symbol : String) :
    pass.relabel symbol = symbol ∨
      symbol = Glyph.invisibleProduct ∧ pass.relabel symbol = Glyph.dotProduct ∨
      symbol = Glyph.superscript ∧ pass.relabel symbol = Glyph.logicalAnd := by
  cases pass with
  | operatorMeaning =>
    simp only [Pass.relabel]
    unfold leftover
    split
    · exact .inr (.inl ⟨‹_›, rfl⟩)
    · split
      · exact .inr (.inr ⟨‹_›, rfl⟩)
      · exact .inl rfl
  | _ => exact .inl rfl

inductive Becomes (pass : Pass) : Tree → Tree → Prop
  | operator (symbol : String) : Becomes pass (.operator symbol) (.operator (pass.relabel symbol))
  | inner {tree : Tree} (inner : tree.elements? = none) (operand : tree.isOperand = true) :
      Becomes pass tree (tree.mapChildren pass.apply)
  | sequence {tree outcome : Tree} (before : tree.elements?.isSome = true)
      (after : outcome.elements?.isSome = true) : Becomes pass tree outcome
  | made {tree made : Tree} {block : List Tree} (before : tree.elements?.isSome = true)
      (makes : Makes pass block made) : Becomes pass tree (made.mapChildren pass.apply)

theorem apply_operator (pass : Pass) (symbol : String) :
    pass.apply (.operator symbol) = .operator (pass.relabel symbol) := by
  rw [Pass.apply_eq]
  cases pass <;> rfl

theorem apply_inner (pass : Pass) (inner : tree.elements? = none) (operand : tree.isOperand = true) :
    pass.apply tree = tree.mapChildren pass.apply := by
  rw [Pass.apply_eq]
  cases tree with
  | row _ | cluster _ => cases inner
  | operator _ => cases operand
  | _ => cases pass <;> rfl

theorem becomes_of_inner (pass : Pass) (inner : tree.elements? = none) :
    Becomes pass tree (pass.apply tree) := by
  cases tree with
  | operator symbol => exact apply_operator pass symbol ▸ .operator symbol
  | _ => exact apply_inner pass inner rfl ▸ .inner inner rfl

theorem isSome_elements?_mapChildren (f : Tree → Tree) (tree : Tree) :
    (tree.mapChildren f).elements?.isSome = tree.elements?.isSome := by
  cases tree <;> rfl

theorem elements?_apply (pass : Pass) (inner : tree.elements? = none) :
    (pass.apply tree).elements? = none := by
  cases tree with
  | operator symbol =>
    rw [apply_operator]
    rfl
  | row _ | cluster _ => cases inner
  | _ =>
    rw [apply_inner pass rfl rfl]
    rfl

theorem isSome_elements?_visit (pass : Pass) (tree : Tree) :
    (pass.visit tree).elements?.isSome = tree.elements?.isSome := by
  cases tree with
  | row elements =>
    obtain ⟨folded, visited, _⟩ := folds_visit_row pass elements
    rw [visited]
    rfl
  | cluster elements =>
    cases pass with
    | ranges | operatorSuperscripts => cases elements <;> rfl
    | operatorMeaning =>
      cases elements with
      | nil => rfl
      | cons first rest => cases first <;> rfl
    | _ => rfl
  | _ => cases pass <;> rfl

theorem becomes_apply (other : pass ≠ .invisibleProduct) (firm : Firm tree) :
    Becomes pass tree (pass.apply tree) := by
  cases sequence : tree.elements? with
  | none => exact becomes_of_inner pass sequence
  | some elements =>
    have before : tree.elements?.isSome = true := by simp [sequence]
    rw [Pass.apply_eq]
    rcases collapse_visit_cases other firm with same | ⟨_, block, makes⟩
    · refine .sequence before ?_
      rw [same, isSome_elements?_mapChildren, isSome_elements?_visit, before]
    · exact .made before makes

theorem Makes.unbounded {block : List Tree} {made : Tree} (makes : Makes pass block made)
    (other : pass ≠ .ranges) : takesRange made = false ∧ radical? made = none := by
  have raised (base superscript : Tree) : takesRange (raise base superscript) = false ∧
      radical? (raise base superscript) = none := by
    unfold raise
    split <;> exact ⟨rfl, rfl⟩
  cases makes with
  | bound => contradiction
  | exponent | primes | mark => exact raised _ _
  | _ => exact ⟨rfl, rfl⟩

theorem inner_of_isMade (made : isMade tree = true) :
    tree.elements? = none ∧ tree.isOperand = true := by
  cases tree with
  | row _ | cluster _ | operator _ => cases made
  | _ => exact ⟨rfl, rfl⟩

@[simp] theorem isMade_mapChildren (f : Tree → Tree) (tree : Tree) :
    isMade (tree.mapChildren f) = isMade tree := by
  cases tree <;> rfl

@[simp] theorem takesRange_mapChildren (f : Tree → Tree) (tree : Tree) :
    takesRange (tree.mapChildren f) = takesRange tree := by
  cases tree <;> rfl

@[simp] theorem isSome_radical?_mapChildren (f : Tree → Tree) (tree : Tree) :
    (radical? (tree.mapChildren f)).isSome = (radical? tree).isSome := by
  cases tree with
  | limits glyph lower upper =>
    simp only [mapChildren, radical?]
    split <;> rfl
  | _ => rfl

theorem isOperator_eq (symbol : String) (tree : Tree) :
    tree.isOperator symbol = tree.operator?.any (· == symbol) := by
  cases tree <;> rfl

theorem isSome_braceSide?_eq (tree : Tree) :
    (braceSide? tree).isSome =
      tree.operator?.any fun symbol => symbol == Glyph.overbrace || symbol == Glyph.underbrace := by
  cases tree with
  | operator symbol =>
    simp only [braceSide?, operator?, Option.any_some]
    split
    · simp_all
    · split <;> simp_all
  | _ => rfl

namespace Becomes
variable {outcome : Tree}

theorem kept (becomes : Becomes pass tree outcome) (inner : outcome.elements? = none)
    (unmade : isMade outcome = false) :
    (∃ symbol, tree = .operator symbol ∧ outcome = .operator (pass.relabel symbol)) ∨
      outcome = tree.mapChildren pass.apply := by
  cases becomes with
  | operator symbol => exact .inl ⟨symbol, rfl, rfl⟩
  | inner => exact .inr rfl
  | sequence _ after =>
    rw [inner] at after
    cases after
  | made _ makes =>
    rw [isMade_mapChildren, makes.isMade] at unmade
    cases unmade

theorem any_operator? (becomes : Becomes pass tree outcome) {test : String → Bool}
    (dot : test Glyph.dotProduct = false) (and : test Glyph.logicalAnd = false)
    (found : outcome.operator?.any test = true) : tree.operator?.any test = true := by
  cases outcome with
  | operator symbol =>
    rcases becomes.kept rfl rfl with ⟨own, rfl, same⟩ | same
    · cases same
      rcases relabel_cases pass own with kept | ⟨_, moved⟩ | ⟨_, moved⟩
      · rwa [kept] at found
      · simp [operator?, moved, dot] at found
      · simp [operator?, moved, and] at found
    · cases tree with
      | operator own =>
        cases same
        exact found
      | _ => cases same
  | _ => cases found

theorem isOperator (becomes : Becomes pass tree outcome) {symbol : String}
    (dot : symbol ≠ Glyph.dotProduct) (and : symbol ≠ Glyph.logicalAnd)
    (found : outcome.isOperator symbol = true) : tree.isOperator symbol = true := by
  rw [isOperator_eq] at found ⊢
  exact becomes.any_operator? (beq_false_of_ne dot.symm) (beq_false_of_ne and.symm) found

theorem isOperand (becomes : Becomes pass tree outcome) (operand : outcome.isOperand = true) :
    tree.isOperand = true := by
  cases becomes with
  | operator symbol => cases operand
  | inner _ before => exact before
  | sequence before _ | made before _ =>
    cases tree with
    | operator symbol => cases before
    | _ => rfl

theorem isNumbered (becomes : Becomes pass tree outcome) {next after : Tree}
    (follows : Becomes pass next after) (found : isNumbered outcome after = true) :
    isNumbered tree next = true := by
  unfold Layout.isNumbered at found
  split at found
  · rcases becomes.kept rfl rfl with ⟨_, _, same⟩ | same
    · cases same
    · rcases follows.kept rfl rfl with ⟨_, _, same'⟩ | same'
      · cases same'
      · cases tree with
        | identifier symbol =>
          cases next with
          | number numeral => rfl
          | _ => cases same'
        | _ => cases same
  · cases found

theorem isSome_rangeContents? (becomes : Becomes pass tree outcome)
    (found : (rangeContents? outcome).isSome = true) : (rangeContents? tree).isSome = true := by
  obtain ⟨contents, found⟩ := Option.isSome_iff_exists.mp found
  obtain ⟨right, rfl⟩ := rangeContents?_eq_some found
  rcases becomes.kept rfl rfl with ⟨_, _, same⟩ | same
  · cases same
  · cases tree with
    | bracketed left own inside =>
      cases same
      rfl
    | _ => cases same

theorem takesRange (becomes : Becomes pass tree outcome)
    (unbounded : pass ≠ .ranges ∨ tree.elements? = none) (takes : takesRange outcome = true) :
    takesRange tree = true := by
  cases becomes with
  | operator symbol =>
    rcases relabel_cases pass symbol with kept | ⟨rfl, _⟩ | ⟨rfl, _⟩
    · rwa [kept] at takes
    · decide
    · decide
  | inner => simpa using takes
  | sequence _ after =>
    cases outcome with
    | row _ | cluster _ => cases takes
    | _ => cases after
  | made before makes =>
    rcases unbounded with other | inner
    · rw [takesRange_mapChildren, (makes.unbounded other).1] at takes
      cases takes
    · rw [inner] at before
      cases before

theorem isSome_radical? (becomes : Becomes pass tree outcome) (other : pass ≠ .ranges)
    (found : (radical? outcome).isSome = true) : (radical? tree).isSome = true := by
  cases becomes with
  | operator symbol =>
    rcases relabel_cases pass symbol with kept | ⟨_, moved⟩ | ⟨_, moved⟩
    · rwa [kept] at found
    · rw [moved] at found
      cases found
    · rw [moved] at found
      cases found
  | inner => simpa using found
  | sequence _ after =>
    cases outcome with
    | row _ | cluster _ => cases found
    | _ => cases after
  | made before makes =>
    rw [isSome_radical?_mapChildren, (makes.unbounded other).2] at found
    cases found

theorem isSome_braceSide? (becomes : Becomes pass tree outcome)
    (found : (braceSide? outcome).isSome = true) : (braceSide? tree).isSome = true := by
  rw [isSome_braceSide?_eq] at found ⊢
  exact becomes.any_operator? (by decide) (by decide) found

end Becomes

theorem twoRows?_eq_some {first second : List Tree}
    (found : twoRows? tree = some (first, second)) :
    ∃ left right, tree = .bracketed left right (some (.grid [first, second])) := by
  unfold twoRows? at found
  split at found
  · cases found
    exact ⟨_, _, rfl⟩
  · cases found

theorem isSome_twoRows?_of_apply (other : pass ≠ .invisibleProduct) (firm : Firm tree)
    (found : (twoRows? (pass.apply tree)).isSome = true) : (twoRows? tree).isSome = true := by
  obtain ⟨⟨comment, base⟩, found⟩ := Option.isSome_iff_exists.mp found
  obtain ⟨left, right, outcome⟩ := twoRows?_eq_some found
  have becomes := becomes_apply other firm
  rw [outcome] at becomes
  rcases becomes.kept rfl rfl with ⟨_, _, same⟩ | same
  · cases same
  · cases tree with
    | bracketed own closer contents =>
      cases contents with
      | none => cases same
      | some inside =>
        have grid : Tree.grid [comment, base] = pass.apply inside := by
          simpa [mapChildren] using (bracketed.inj same).2.2
        have member : inside ∈ (bracketed own closer (some inside)).children := by simp [children]
        have inner := becomes_apply other (firm.child member)
        rw [← grid] at inner
        rcases inner.kept rfl rfl with ⟨_, _, same⟩ | same
        · cases same
        · cases inside with
          | grid cells =>
            have sizes := congrArg List.length (Tree.grid.inj same)
            rcases cells with _ | ⟨_, _ | ⟨_, _ | ⟨_, _⟩⟩⟩
            · cases sizes
            · cases sizes
            · rfl
            · simp at sizes
          | _ => cases same
    | _ => cases same

/-- The walk joins nothing that was not joined before. The pass for bounds is the exception, as
it makes elements that take bounds and radicals with an index. -/
theorem joins_of_joins_apply {goal : Pass} (other : pass ≠ .invisibleProduct) {first second : Tree}
    (firmFirst : Firm first) (firmSecond : Firm second)
    (unbounded : pass ≠ .ranges ∨ goal ≠ .roots ∧ (goal = .ranges → first.elements? = none))
    {last : Bool} (joined : goal.joins (pass.apply first) (pass.apply second) last = true) :
    goal.joins first second last = true := by
  have becomes := becomes_apply other firmFirst
  have follows := becomes_apply other firmSecond
  cases goal with
  | invisibleProduct | operatorMeaning => cases joined
  | subscripts =>
    simp only [Pass.joins, Bool.or_eq_true] at joined ⊢
    exact joined.imp (becomes.isOperator (by decide) (by decide)) (becomes.isNumbered follows)
  | exponents =>
    simp only [Pass.joins, Bool.and_eq_true] at joined ⊢
    exact ⟨⟨becomes.isOperand joined.1.1, follows.isOperator (by decide) (by decide) joined.1.2⟩,
      joined.2⟩
  | ranges =>
    simp only [Pass.joins, Bool.and_eq_true] at joined ⊢
    exact ⟨becomes.takesRange (unbounded.imp_right fun flat => flat.2 rfl) joined.1,
      follows.isSome_rangeContents? joined.2⟩
  | roots =>
    exact becomes.isSome_radical? (unbounded.resolve_right fun flat => flat.1 rfl) joined
  | fractions => exact becomes.isOperator (by decide) (by decide) joined
  | operatorSuperscripts =>
    simp only [Pass.joins, Bool.and_eq_true, Bool.or_eq_true] at joined ⊢
    exact ⟨becomes.isOperand joined.1,
      joined.2.imp (follows.isOperator (by decide) (by decide))
        (And.imp_right (follows.any_operator? (by decide) (by decide)))⟩
  | braces =>
    simp only [Pass.joins, Bool.and_eq_true] at joined ⊢
    exact ⟨becomes.isSome_braceSide? joined.1, isSome_twoRows?_of_apply other firmSecond joined.2⟩

theorem isOperand_of_sequence (sequence : tree.elements?.isSome = true) :
    tree.isOperand = true := by
  cases tree with
  | operator symbol => cases sequence
  | _ => rfl

theorem isOperand_mapChildren (f : Tree → Tree) (tree : Tree) :
    (tree.mapChildren f).isOperand = tree.isOperand := by
  cases tree <;> rfl

theorem isOperand_apply (other : pass ≠ .invisibleProduct) (firm : Firm tree) :
    (pass.apply tree).isOperand = tree.isOperand := by
  have becomes := becomes_apply other firm
  generalize pass.apply tree = outcome at becomes
  cases becomes with
  | operator symbol => rfl
  | inner _ _ => exact isOperand_mapChildren _ tree
  | sequence before after => rw [isOperand_of_sequence before, isOperand_of_sequence after]
  | made before makes =>
    rw [isOperand_mapChildren, isOperand_of_sequence before, (inner_of_isMade makes.isMade).2]

section
variable {joined : Tree → Tree → Bool → Bool}

theorem Apart.map {f : Tree → Tree} {elements : List Tree} (apart : Apart joined elements)
    (reflects : ∀ first ∈ elements, ∀ second ∈ elements, ∀ last,
      joined (f first) (f second) last = true → joined first second last = true) :
    Apart joined (elements.map f) := by
  induction elements with
  | nil => trivial
  | cons first rest ih =>
    have below := ih apart.tail fun element member second member' =>
      reflects element (List.mem_cons_of_mem _ member) second (List.mem_cons_of_mem _ member')
    refine below.cons fun second behind found => ?_
    cases rest with
    | nil => cases found
    | cons next rest =>
      cases found
      have free := apart.1
      rw [Bool.eq_false_iff] at free ⊢
      intro folded
      rw [List.isEmpty_map] at folded
      exact free (reflects first (by simp) next (by simp) _ folded)

theorem Apart.of_append {front behind : List Tree} (apart : Apart joined (front ++ behind)) :
    Apart joined behind := by
  induction front with
  | nil => exact apart
  | cons first front ih => exact ih apart.tail

theorem Apart.change_first {first other : Tree} {rest : List Tree}
    (apart : Apart joined (first :: rest))
    (starts : ∀ next last, joined other next last = true → joined first next last = true) :
    Apart joined (other :: rest) := by
  refine apart.tail.cons fun next behind found => ?_
  subst found
  have free := apart.1
  rw [Bool.eq_false_iff] at free ⊢
  exact free ∘ starts next _

/-- A node in place of several, which starts nothing that the last of them would not have started,
and ends nothing that does not depend on what stands in front alone. -/
theorem Apart.replace {front behind start : List Tree} {final made : Tree}
    (apart : Apart joined (front ++ (start ++ [final]) ++ behind))
    (ends : ∀ element next last last', joined element made last = true →
      joined element next last' = true)
    (starts : ∀ next last, joined made next last = true → joined final next last = true) :
    Apart joined (front ++ made :: behind) := by
  induction front with
  | nil =>
    simp only [List.nil_append, List.append_assoc] at apart
    have rest : Apart joined (final :: behind) := apart.of_append
    exact rest.change_first starts
  | cons first front ih =>
    refine (ih apart.tail).cons fun next more found => ?_
    cases front with
    | nil =>
      cases found
      obtain ⟨head, tail, block⟩ : ∃ head tail, start ++ [final] = head :: tail :=
        List.exists_cons_of_ne_nil (by simp)
      rw [block] at apart
      have free := apart.1
      rw [Bool.eq_false_iff] at free ⊢
      exact fun folded => free (ends first head _ _ folded)
    | cons second front =>
      cases found
      have long : (front ++ made :: behind).isEmpty =
          (front ++ (start ++ [final]) ++ behind).isEmpty := by
        rw [Bool.eq_iff_iff]
        simp
      change joined first next (front ++ made :: behind).isEmpty = false
      rw [long]
      exact apart.1

end

def Flat : Tree → Prop
  | .cluster elements => ∀ element ∈ elements, element.elements? = none
  | _ => True

theorem Pass.Finished.mapChildren_apply {goal : Pass} (finished : goal.Finished tree)
    (product : goal ≠ .invisibleProduct) (other : pass ≠ .invisibleProduct)
    (firm : ∀ child ∈ tree.children, Firm child)
    (unbounded : pass ≠ .ranges ∨ goal ≠ .roots ∧ (goal = .ranges → Flat tree)) :
    goal.Finished (tree.mapChildren pass.apply) := by
  have apart {elements : List Tree} (apart : Apart goal.joins elements)
      (within : elements ⊆ tree.children)
      (unbounded : pass ≠ .ranges ∨ goal ≠ .roots ∧ (goal = .ranges → ∀ element ∈ elements,
        element.elements? = none)) : Apart goal.joins (elements.map pass.apply) :=
    apart.map fun first member second member' last joined =>
      joins_of_joins_apply other (firm first (within member)) (firm second (within member'))
        (unbounded.imp_right (And.imp_right fun flat here => flat here first member)) joined
  cases goal with
  | invisibleProduct => contradiction
  | subscripts | exponents | ranges | operatorSuperscripts =>
    cases tree with
    | cluster elements => exact apart finished (List.Subset.refl _) unbounded
    | _ => trivial
  | roots | braces =>
    cases tree with
    | row elements => exact apart finished (List.Subset.refl _) (unbounded.imp_right (by simp))
    | cluster elements => exact apart finished (List.Subset.refl _) (unbounded.imp_right (by simp))
    | _ => trivial
  | fractions =>
    cases tree with
    | row elements | cluster elements =>
      simp only [mapChildren, Pass.Finished, ← List.map_tail] at finished ⊢
      exact apart finished (List.tail_sublist elements).subset (unbounded.imp_right (by simp))
    | _ => trivial
  | operatorMeaning =>
    cases tree with
    | cluster elements =>
      cases elements with
      | nil => exact finished
      | cons first rest =>
        intro element member
        cases member
        rw [Bool.eq_false_iff]
        intro found
        have becomes := becomes_apply other (firm first (List.mem_cons_self))
        have before := finished first rfl
        rw [becomes.isOperator (by decide) (by decide) found] at before
        cases before
    | operator symbol => exact finished
    | _ => trivial

end PlainMath.Layout
