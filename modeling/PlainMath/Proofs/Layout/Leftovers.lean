import PlainMath.Proofs.Layout.Places
import PlainMath.Tree.Equality

/-! What a second layout finds left to do. The sides of a fraction are gathered from elements with
blanks between them, and the parts of a brace from the cells of a grid, when the passes for scripts
and bounds, or for roots and fractions, have gone by. All else stays as the passes have left it. -/
namespace PlainMath.Layout
open PlainMath.Tree

namespace Pass

def Precedes (goal pass : Pass) : Prop := all.idxOf goal < all.idxOf pass

instance (goal pass : Pass) : Decidable (goal.Precedes pass) :=
  inferInstanceAs (Decidable (all.idxOf goal < all.idxOf pass))

/-- The nodes whose parts have been put together when the pass had gone by. -/
def exempt : Pass → Tree → Bool
  | .subscripts, .fraction .. => true
  | .ranges, .fraction .. => true
  | .roots, .brace .. => true
  | .fractions, .brace .. => true
  | _, _ => false

end Pass

variable {pass goal : Pass} {tree : Tree}

theorem isOperator_of_isMade (made : isMade tree = true) (symbol : String) :
    tree.isOperator symbol = false := by
  cases tree with
  | operator _ => cases made
  | _ => rfl

theorem isNumbered_of_isMade (made : isMade tree = true) (other : Tree) :
    isNumbered other tree = false ∧ isNumbered tree other = false := by
  cases tree with
  | identifier _ | number _ => cases made
  | _ => exact ⟨by cases other <;> rfl, rfl⟩

theorem rangeContents?_of_isMade (made : isMade tree = true) : rangeContents? tree = none := by
  cases tree with
  | bracketed => cases made
  | _ => rfl

theorem Makes.ne_nil {block : List Tree} {made : Tree} (makes : Makes pass block made) :
    block ≠ [] := by
  cases makes <;> simp

theorem Makes.isOperand_getLast {block : List Tree} {made : Tree} (makes : Makes .braces block made) :
    (block.getLast makes.ne_nil).isOperand = true := by
  cases makes with
  | brace signed rows =>
    obtain ⟨left, right, rfl⟩ := twoRows?_eq_some rows
    rfl

theorem apart_replace (later : goal.Precedes pass) (other : goal ≠ .exponents)
    {front block behind : List Tree} {made : Tree} (makes : Makes pass block made)
    (apart : Apart goal.joins (front ++ block ++ behind)) :
    Apart goal.joins (front ++ made :: behind) := by
  rw [← List.dropLast_concat_getLast makes.ne_nil] at apart
  have kind := makes.isMade
  have bounded (early : goal = .ranges ∨ goal = .roots) : pass ≠ .ranges := by
    rintro rfl
    rcases early with rfl | rfl <;> exact absurd later (by decide)
  refine apart.replace (fun element next last last' joined => ?_) fun next last joined => ?_
  · cases goal with
    | exponents => contradiction
    | subscripts =>
      simp only [Pass.joins, isNumbered_of_isMade kind element, Bool.or_false] at joined
      simp [Pass.joins, joined]
    | ranges =>
      simp [Pass.joins, rangeContents?_of_isMade kind] at joined
    | roots | fractions => exact joined
    | operatorSuperscripts =>
      have unsigned := operator?_of_isOperand (inner_of_isMade kind).2
      simp [Pass.joins, isOperator_of_isMade kind, unsigned] at joined
    | braces =>
      cases pass <;> exact absurd later (by decide)
    | _ => cases joined
  · cases goal with
    | exponents => contradiction
    | subscripts =>
      simp [Pass.joins, isNumbered_of_isMade kind next, isOperator_of_isMade kind] at joined
    | ranges =>
      simp [Pass.joins, makes.unbounded (bounded (.inl rfl))] at joined
    | roots =>
      simp [Pass.joins, makes.unbounded (bounded (.inr rfl))] at joined
    | fractions => simp [Pass.joins, isOperator_of_isMade kind] at joined
    | operatorSuperscripts =>
      obtain rfl : pass = .braces := by
        cases pass with
        | braces => rfl
        | _ => exact absurd later (by decide)
      simp only [Pass.joins, Bool.and_eq_true] at joined ⊢
      exact ⟨makes.isOperand_getLast, joined.2⟩
    | braces =>
      cases pass <;> exact absurd later (by decide)
    | _ => cases joined

theorem finished_of_inner (goal : Pass) (inner : tree.elements? = none)
    (operand : tree.isOperand = true) : goal.Finished tree := by
  cases tree with
  | row _ | cluster _ => cases inner
  | operator _ => cases operand
  | _ => cases goal <;> trivial

theorem finished_primes (count : Nat) : Pass.operatorMeaning.Finished (primes count) := by
  have different (symbol : String) (word : symbol.toList[1]? ≠ some 'p') (nonempty : symbol ≠ "") :
      String.ofList (List.replicate count Glyph.prime.toList).flatten ≠ symbol := by
    rintro rfl
    cases count with
    | zero => exact nonempty rfl
    | succ count =>
      rw [String.toList_ofList, List.replicate_succ] at word
      exact word rfl
  change leftover _ = _
  unfold leftover
  rw [if_neg (different _ (by decide) (by decide)), if_neg (different _ (by decide) (by decide))]

theorem apart_tail_replace (later : Pass.fractions.Precedes pass) {front block behind : List Tree}
    {made : Tree} (makes : Makes pass block made)
    (apart : Apart (Pass.joins .fractions) (front ++ block ++ behind).tail) :
    Apart (Pass.joins .fractions) (front ++ made :: behind).tail := by
  -- a bar in front of everything is not looked at, so the first element may be any
  cases front with
  | nil =>
    rw [List.nil_append, List.tail_append_of_ne_nil makes.ne_nil] at apart
    exact apart.of_append
  | cons first front => exact apart_replace later (by decide) makes apart

theorem joins_logicalNot (early : goal ≠ .braces) {next : Tree} {last : Bool}
    (joined : goal.joins (.operator Glyph.logicalNot) next last = true) :
    goal.joins (.operator Glyph.factorial) next last = true := by
  cases goal with
  | ranges => exact joined
  | braces => contradiction
  | _ => cases joined

/-- What a pass has finished, later passes leave finished, but for the parts that are put together
behind it. Roots may get under fractions, which is another matter. -/
theorem stays_finished (later : goal.Precedes pass) (product : goal ≠ .invisibleProduct)
    (other : goal ≠ .exponents) (roots : goal = .roots → pass ≠ .fractions) :
    Stays pass goal.Finished goal.exempt where
  free_cases {tree} found := by
    cases tree with
    | fraction => exact .inl ⟨_, _, rfl⟩
    | brace => exact .inr ⟨_, _, _, rfl⟩
    | _ => cases goal <;> cases found
  free_map {f tree} := by
    cases goal <;> cases tree <;> rfl
  inner := finished_of_inner goal
  operator here symbol := by
    subst here
    cases goal with
    | operatorMeaning => exact absurd later (by decide)
    | _ => trivial
  primes _ count := by
    cases goal with
    | operatorMeaning => exact finished_primes count
    | _ => trivial
  row here elements := by
    subst here
    cases goal with
    | roots | fractions | braces => exact absurd later (by decide)
    | _ => trivial
  fraction here numerator denominator := by
    subst here
    cases goal with
    | subscripts | ranges => rfl
    | invisibleProduct | exponents | roots => contradiction
    | _ => exact absurd later (by decide)
  brace here := by
    subst here
    cases goal with
    | roots | fractions => exact .inr fun _ _ _ => rfl
    | braces => exact absurd later (by decide)
    | _ => exact .inl fun _ => trivial
  replaceRow {front block behind made} makes finished := by
    cases goal with
    | roots | braces => exact apart_replace later other makes finished
    | fractions => exact apart_tail_replace later makes finished
    | _ => trivial
  replaceCluster {front block behind made} makes finished := by
    cases goal with
    | invisibleProduct => contradiction
    | operatorMeaning =>
      intro first member
      cases front with
      | nil =>
        cases member
        exact isOperator_of_isMade makes.isMade _
      | cons head front =>
        cases member
        exact finished first rfl
    | fractions => exact apart_tail_replace later makes finished
    | _ => exact apart_replace later other makes finished
  meaning here {elements} finished := by
    subst here
    unfold operatorMeaning
    split
    · contradiction
    · rename_i symbol rest same
      cases same
      split
      · rename_i factorial
        rw [factorial] at finished
        cases goal with
        | operatorMeaning | operatorSuperscripts | braces => exact absurd later (by decide)
        | invisibleProduct | exponents => contradiction
        | fractions => exact finished
        | roots | subscripts | ranges =>
          exact Apart.change_first finished fun _ _ => joins_logicalNot (by decide)
      · exact finished
    · exact finished
  parts {tree} firm finished := by
    refine finished.mapChildren_apply product ?_ firm ?_
    · rintro rfl
      exact absurd later (by cases goal <;> decide)
    · by_cases here : pass = .ranges
      · subst here
        refine .inr ⟨?_, ?_⟩
        · rintro rfl
          exact absurd later (by decide)
        · rintro rfl
          exact absurd later (by decide)
      · exact .inl here

theorem Apart.left {joined : Tree → Tree → Bool → Bool}
    (alike : ∀ first second last last', joined first second last = joined first second last')
    {front behind : List Tree} (apart : Apart joined (front ++ behind)) : Apart joined front := by
  induction front with
  | nil => trivial
  | cons first front ih =>
    refine (ih apart.tail).cons fun second more found => ?_
    subst found
    rw [alike first second _ (more ++ behind).isEmpty]
    exact apart.1

theorem sound_side {elements : List Tree}
    (all : ∀ element ∈ elements, Sound Pass.roots.Finished (fun _ => false) element)
    (apart : Apart (Pass.joins .roots) elements) :
    Sound Pass.roots.Finished (fun _ => false) (side elements) := by
  match elements with
  | [] => exact ⟨trivial, below_of_children (by simp [side, ofCluster?, emptyRow, children])⟩
  | [only] =>
    have sound := all only List.mem_cons_self
    change Sound _ _ only.unwrap
    unfold unwrap
    split
    · exact sound.2.child rfl (by simp [children])
    · exact sound
  | _ :: _ :: _ => exact ⟨apart, below_of_children all⟩

theorem foldFraction_cases {elements : List Tree}
    (all : ∀ element ∈ elements, Sound Pass.roots.Finished (fun _ => false) element)
    (apart : Apart (Pass.joins .roots) elements) :
    foldFraction elements = elements ∨ ∃ whole, foldFraction elements = [whole] ∧
      Sound Pass.roots.Finished (fun _ => false) whole := by
  unfold foldFraction
  split
  · rename_i before behind found
    obtain ⟨bar, _, rfl⟩ := cutAtBar?_eq_some found
    obtain ⟨left, right⟩ := List.forall_mem_append.mp all
    have right := (List.forall_mem_cons.mp right).2
    have numerator := sound_side left (apart.left fun _ _ _ _ => rfl)
    have denominator := sound_side right (Apart.of_append apart).tail
    refine .inr ⟨_, rfl, trivial, below_of_children ?_⟩
    simpa [children] using ⟨numerator, denominator⟩
  · exact .inl rfl

theorem finished_roots_fractions (firm : Firm tree)
    (finished : ∀ node ∈ tree.nodes, Pass.roots.Finished node) :
    ∀ node ∈ (Pass.fractions.apply tree).nodes, Pass.roots.Finished node := by
  have visited {tree : Tree} (firm : Firm tree)
      (sound : Sound Pass.roots.Finished (fun _ => false) tree) :
      Sound Pass.roots.Finished (fun _ => false) (Pass.fractions.visit tree).collapse := by
    cases tree with
    | row elements | cluster elements =>
      have all : ∀ element ∈ elements, Sound Pass.roots.Finished (fun _ => false) element :=
        fun element member => sound.2.child rfl member
      simp only [Pass.visit, fractions]
      rcases foldFraction_cases all sound.1 with same | ⟨whole, single, made⟩
      · rw [same, firm.collapse_eq]
        exact sound
      · rw [single]
        exact made
    | _ => exact sound
  refine forall_nodes_apply
    (fun tree => Firm tree ∧ Sound Pass.roots.Finished (fun _ => false) tree) ?_ ?_
    ⟨firm, forall_nodes_iff.mp finished⟩
  · rintro tree ⟨firm, sound⟩ child member
    exact ⟨(firm.collapse_visit (by decide)).child member,
      (visited firm sound).2.child rfl member⟩
  · rintro tree ⟨firm, sound⟩
    have firm' : Firm (Pass.fractions.visit tree).collapse := firm.collapse_visit (by decide)
    exact (visited firm sound).1.mapChildren_apply (by decide) (by decide)
      (fun child member => firm'.child member) (.inl (by decide))

theorem Firm.apply (other : pass ≠ .invisibleProduct) (firm : Firm tree) :
    Firm (pass.apply tree) := by
  rcases firm with rfl | rfl | built
  · exact .inl (apply_emptyRow pass)
  · exact .inr (.inl (apply_emptyGrid pass))
  · have others : Pass.invisibleProduct ∉ [pass] := by simpa using other.symm
    exact .inr (.inr (built_foldl_apply filled_foldable others built))

theorem sound_foldl_apply (product : goal ≠ .invisibleProduct) (other : goal ≠ .exponents)
    {passes : List Pass} (later : ∀ pass ∈ passes, goal.Precedes pass)
    (roots : goal = .roots → Pass.fractions ∉ passes) (firm : Firm tree)
    (sound : Sound goal.Finished goal.exempt tree) :
    Sound goal.Finished goal.exempt (passes.foldl (fun folded pass => pass.apply folded) tree) := by
  induction passes generalizing tree with
  | nil => exact sound
  | cons pass passes ih =>
    obtain ⟨next, later⟩ := List.forall_mem_cons.mp later
    have first : pass ≠ .invisibleProduct := by
      rintro rfl
      exact absurd next (by cases goal <;> decide)
    have stays : Stays pass goal.Finished goal.exempt :=
      stays_finished next product other fun here same => roots here (by simp [same])
    obtain ⟨below, kept⟩ := stays.below_apply first firm sound.2
    exact ih later (fun here member => roots here (List.mem_cons_of_mem _ member))
      (firm.apply first) ⟨kept sound.1, below⟩

theorem sound_layout (source : String) (count : Nat) (product : goal ≠ .invisibleProduct)
    (other : goal ≠ .exponents) (later : ∀ pass ∈ Pass.all.drop (count + 1), goal.Precedes pass)
    (roots : goal = .roots → Pass.fractions ∉ Pass.all.drop (count + 1))
    (finished : ∀ node ∈ (stage (count + 1) (parse source)).nodes, goal.Finished node) :
    Sound goal.Finished goal.exempt (parse source).layout := by
  have whole : (parse source).layout = (Pass.all.drop (count + 1)).foldl
      (fun folded pass => pass.apply folded) (stage (count + 1) (parse source)) := by
    rw [stage, ← List.foldl_append, List.take_append_drop, layout]
  rw [whole]
  exact sound_foldl_apply product other later roots (firm_stage source count)
    (forall_nodes_iff.mp finished).weaken

theorem sound_layout_parse (source : String) (product : goal ≠ .invisibleProduct)
    (other : goal ≠ .exponents) : Sound goal.Finished goal.exempt (parse source).layout := by
  cases goal with
  | invisibleProduct | exponents => contradiction
  | subscripts =>
    exact sound_layout source 1 product other (by decide) (by decide) (finished_stage source rfl other)
  | ranges =>
    exact sound_layout source 3 product other (by decide) (by decide) (finished_stage source rfl other)
  | roots =>
    have finished : ∀ node ∈ (stage 5 (parse source)).nodes, Pass.roots.Finished node :=
      finished_stage source rfl other
    exact sound_layout source 5 product other (by decide) (by decide)
      (finished_roots_fractions (firm_stage source 4) finished)
  | fractions =>
    exact sound_layout source 5 product other (by decide) (by decide) (finished_stage source rfl other)
  | operatorMeaning =>
    exact sound_layout source 6 product other (by decide) (by decide) (finished_stage source rfl other)
  | operatorSuperscripts =>
    exact sound_layout source 7 product other (by decide) (by decide) (finished_stage source rfl other)
  | braces =>
    exact sound_layout source 8 product other (by decide) (by decide) (finished_stage source rfl other)

theorem Apart.of_free {joined : Tree → Tree → Bool → Bool} {elements : List Tree}
    (free : ∀ first, ∀ second ∈ elements, ∀ last, joined first second last = false) :
    Apart joined elements := by
  induction elements with
  | nil => trivial
  | cons first rest ih =>
    refine (ih fun first second member => free first second (List.mem_cons_of_mem _ member)).cons ?_
    rintro second behind rfl
    exact free first second (by simp) _

theorem finished_of_meaning (finished : ∀ node ∈ tree.nodes, Pass.operatorMeaning.Finished node) :
    ∀ node ∈ tree.nodes, Pass.invisibleProduct.Finished node ∧ Pass.exponents.Finished node := by
  intro node member
  have gone {element : Tree} (part : element ∈ node.children) {symbol : String}
      (moved : leftover symbol ≠ symbol) : element.isOperator symbol = false := by
    rw [Bool.eq_false_iff]
    intro found
    have kept := finished element (mem_nodes_of_mem_children member part)
    rw [eq_operator_of_isOperator found] at kept
    exact moved kept
  cases node with
  | cluster elements =>
    refine ⟨fun element part => gone part (by decide), Apart.of_free fun first second part last => ?_⟩
    have unsigned : second.isOperator Glyph.superscript = false := gone part (by decide)
    simp [Pass.joins, unsigned]
  | _ => exact ⟨trivial, trivial⟩

/-- Scripts and bounds leave nothing to do in the sides of a fraction, nor roots and fractions in
the parts of a brace. -/
def Tidy : Tree → Prop
  | .fraction numerator denominator => ∀ side ∈ [numerator, denominator],
    Pass.subscripts.Finished side ∧ Pass.ranges.Finished side
  | .brace _ base comment => ∀ part ∈ [base, comment],
    Pass.roots.Finished part ∧ Pass.fractions.Finished part
  | _ => True

theorem tidy_iff : Tidy tree ↔ ∀ pass : Pass, pass.exempt tree = true →
    ∀ child ∈ tree.children, pass.Finished child := by
  constructor
  · intro tidy pass exempt child member
    cases tree with
    | fraction numerator denominator =>
      cases pass with
      | subscripts => exact (tidy child member).1
      | ranges => exact (tidy child member).2
      | _ => cases exempt
    | brace side base comment =>
      cases pass with
      | roots => exact (tidy child member).1
      | fractions => exact (tidy child member).2
      | _ => cases exempt
    | _ => cases pass <;> cases exempt
  · intro finished
    cases tree with
    | fraction numerator denominator =>
      exact fun side member =>
        ⟨finished .subscripts rfl side member, finished .ranges rfl side member⟩
    | brace side base comment =>
      exact fun part member =>
        ⟨finished .roots rfl part member, finished .fractions rfl part member⟩
    | _ => trivial

theorem foldl_apply_eq_self {passes : List Pass} (same : ∀ pass ∈ passes, pass.apply tree = tree) :
    passes.foldl (fun folded pass => pass.apply folded) tree = tree := by
  induction passes with
  | nil => rfl
  | cons pass passes ih =>
    obtain ⟨first, rest⟩ := List.forall_mem_cons.mp same
    rw [List.foldl_cons, first, ih rest]

theorem finished_layout (source : String)
    (tidy : ∀ node ∈ (parse source).layout.nodes, Tidy node) (pass : Pass) :
    ∀ node ∈ (parse source).layout.nodes, pass.Finished node := by
  have finished {goal : Pass} (product : goal ≠ .invisibleProduct) (other : goal ≠ .exponents) :
      ∀ node ∈ (parse source).layout.nodes, goal.Finished node := by
    have sound := sound_layout_parse source product other
    refine forall_nodes_iff.mpr ⟨sound.1, fun node member _ child part => ?_⟩
    cases exempt : goal.exempt node with
    | false => exact sound.2 node member exempt child part
    | true => exact tidy_iff.mp (tidy node member) goal exempt child part
  have meaning : ∀ node ∈ (parse source).layout.nodes, Pass.operatorMeaning.Finished node :=
    finished (by decide) (by decide)
  have gone := finished_of_meaning meaning
  by_cases product : pass = .invisibleProduct
  · subst product
    exact fun node member => (gone node member).1
  · by_cases other : pass = .exponents
    · subst other
      exact fun node member => (gone node member).2
    · exact finished product other

/-- A second layout changes nothing if and only if the first one has left every fraction and every
brace tidy. -/
theorem layout_layout_iff (source : String) :
    (parse source).layout.layout = (parse source).layout ↔
      ∀ node ∈ (parse source).layout.nodes, Tidy node := by
  have firm : Firm (parse source).layout := firm_stage source 8
  constructor
  · intro same node member
    have meaning : Pass.operatorMeaning.apply (parse source).layout = (parse source).layout :=
      apply_eq_self firm (forall_nodes_iff.mpr (sound_layout_parse source (by decide) (by decide)))
    have each := apply_eq_of_foldl_eq meaning same
    rw [tidy_iff]
    intro pass exempt child part
    have late : pass ≠ .invisibleProduct ∧ pass ≠ .exponents ∧ pass ≠ .operatorMeaning := by
      refine ⟨?_, ?_, ?_⟩ <;> rintro rfl <;> cases exempt
    exact finished_of_apply_eq late.1 late.2.1 late.2.2 firm (each pass (by cases pass <;> decide))
      child (mem_nodes_of_mem_children member part)
  · intro tidy
    exact foldl_apply_eq_self fun pass _ => apply_eq_self firm (finished_layout source tidy pass)

theorem layout_number_behind_bar :
    (parse "a / x 1").layout.layout ≠ (parse "a / x 1").layout := by
  decide +kernel

end PlainMath.Layout
