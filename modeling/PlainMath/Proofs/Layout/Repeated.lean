import PlainMath.Proofs.Layout.Keeping

/-! One run of a pass is enough: what it leaves has nothing more to do for the same pass at any
node, so a second run changes nothing. Exponents are not among these passes. -/
namespace PlainMath.Layout
open PlainMath.Tree

variable {pass : Pass} {tree : Tree}

theorem mapChildren_eq_self {f : Tree → Tree} (same : ∀ child ∈ tree.children, f child = child) :
    tree.mapChildren f = tree := by
  have kept : tree.mapChildren id = tree := by cases tree <;> simp [mapChildren]
  exact (mapChildren_congr same).trans kept

theorem Firm.collapse_eq (firm : Firm tree) : tree.collapse = tree := by
  rcases collapse_cases tree with same | ⟨only, found, _⟩
  · exact same
  · exact absurd rfl (firm.several found)

theorem apply_eq_self (firm : Firm tree) (finished : ∀ node ∈ tree.nodes, pass.Finished node) :
    pass.apply tree = tree := by
  induction tree using Tree.induct with
  | step tree ih =>
    rw [pass.apply_eq, Pass.visit_of_finished (finished tree (mem_nodes_self tree)),
      firm.collapse_eq]
    refine mapChildren_eq_self fun child member => ih child member (firm.child member) ?_
    intro node below
    refine finished node ?_
    rw [nodes_eq]
    exact List.mem_cons_of_mem _ (List.mem_flatMap.mpr ⟨child, member, below⟩)

theorem finished_of_isMade (pass : Pass) (made : isMade tree = true) : pass.Finished tree := by
  cases tree with
  | grid | row | cluster | bracketed | identifier | operator | text | number =>
    cases made
  | _ => cases pass <;> trivial

theorem finished_collapse_visit (product : pass ≠ .invisibleProduct) (other : pass ≠ .exponents)
    (firm : Firm tree) : pass.Finished (pass.visit tree).collapse := by
  rcases collapse_visit_cases product firm with same | ⟨_, block, makes⟩
  · rw [same]
    exact Pass.finished_visit other tree
  · exact finished_of_isMade pass makes.isMade

theorem stays_flat (other : pass ≠ .fractions) : Stays pass Flat fun _ => false where
  free_cases found := by cases found
  free_map := rfl
  inner {tree} inner _ := by
    cases tree with
    | row _ | cluster _ => cases inner
    | _ => trivial
  operator _ _ := trivial
  primes _ _ := trivial
  row _ _ := trivial
  fraction here := absurd here other
  brace _ := .inl fun _ => trivial
  replaceRow _ _ := trivial
  replaceCluster makes flat := by
    simp only [Flat, List.forall_mem_append, List.forall_mem_cons] at flat ⊢
    exact ⟨flat.1.1, (inner_of_isMade makes.isMade).1, flat.2⟩
  meaning _ {elements} flat := by
    unfold operatorMeaning
    split
    · trivial
    · rename_i same
      cases same
      exact List.forall_mem_cons.mpr ⟨rfl, (List.forall_mem_cons.mp flat).2⟩
    · exact flat
  parts {tree} _ flat := by
    cases tree with
    | cluster elements =>
      intro element member
      obtain ⟨before, place, rfl⟩ := List.mem_map.mp member
      exact elements?_apply pass (flat before place)
    | _ => trivial

theorem finished_apply (product : pass ≠ .invisibleProduct) (other : pass ≠ .exponents)
    (firm : Firm tree) (flat : pass = .ranges → Sound Flat (fun _ => false) tree) :
    ∀ node ∈ (pass.apply tree).nodes, pass.Finished node := by
  have visited {tree : Tree} (flat : pass = .ranges → Sound Flat (fun _ => false) tree)
      (here : pass = .ranges) : Sound Flat (fun _ => false) (pass.visit tree).collapse := by
    have stays : Stays pass Flat fun _ => false := stays_flat (by simp [here])
    have kept := stays.collapse_visit product (flat here).2
    exact ⟨kept.2 (flat here).1, kept.1⟩
  refine forall_nodes_apply
    (fun tree => Firm tree ∧ (pass = .ranges → Sound Flat (fun _ => false) tree)) ?_ ?_
    ⟨firm, flat⟩
  · rintro tree ⟨firm, flat⟩ child member
    exact ⟨(firm.collapse_visit product).child member,
      fun here => (visited flat here).2.child rfl member⟩
  · rintro tree ⟨firm, flat⟩
    have firm' := firm.collapse_visit product
    refine (finished_collapse_visit product other firm).mapChildren_apply product product
      (fun child member => firm'.child member) ?_
    by_cases here : pass = .ranges
    · exact .inr ⟨by simp [here], fun _ => (visited flat here).1⟩
    · exact .inl here

def FlatSized (tree : Tree) : Prop := Flat tree ∧ tree.Sized

theorem collapse_invisibleProduct (sound : Sound FlatSized (fun _ => false) tree) :
    (∀ child ∈ (Pass.invisibleProduct.visit tree).collapse.children,
      Sound FlatSized (fun _ => false) child) ∧
    Flat (Pass.invisibleProduct.visit tree).collapse ∧
      Pass.invisibleProduct.Finished (Pass.invisibleProduct.visit tree).collapse := by
  have unchanged {node : Tree} (sound : Sound FlatSized (fun _ => false) node)
      (finished : Pass.invisibleProduct.Finished node) :
      (∀ child ∈ node.children, Sound FlatSized (fun _ => false) child) ∧ Flat node ∧
        Pass.invisibleProduct.Finished node :=
    ⟨fun child member => sound.2.child rfl member, sound.1.1, finished⟩
  have ⟨flat, sized⟩ := sound.1
  cases tree with
  | cluster elements =>
    have visited : Pass.invisibleProduct.visit (.cluster elements) =
      .cluster (elements.filter (!·.isOperator Glyph.invisibleProduct)) := rfl
    have within : elements.filter (!·.isOperator Glyph.invisibleProduct) ⊆ elements :=
      List.filter_sublist.subset
    rw [visited]
    rcases collapse_cases (.cluster (elements.filter (!·.isOperator Glyph.invisibleProduct))) with
      same | ⟨only, alone, single⟩
    · rw [same]
      refine ⟨fun child member => sound.2.child rfl (within member),
        fun element member => flat element (within member), fun element member => ?_⟩
      simpa using (List.mem_filter.mp member).2
    · have member : only ∈ elements := within (by simp [Option.some.inj alone])
      have inner := flat only member
      rw [single]
      refine unchanged (sound.2.child rfl member) ?_
      cases only with
      | cluster _ => cases inner
      | _ => trivial
  | row elements =>
    have same : (Pass.invisibleProduct.visit (.row elements)).collapse = .row elements := by
      match elements with
      | [] | _ :: _ :: _ => rfl
      | [_] => exact absurd rfl sized
    rw [same]
    exact unchanged sound trivial
  | _ => exact unchanged sound trivial

theorem finished_invisibleProduct (sound : Sound FlatSized (fun _ => false) tree) :
    ∀ node ∈ (Pass.invisibleProduct.apply tree).nodes,
      Flat node ∧ Pass.invisibleProduct.Finished node := by
  refine forall_nodes_apply (Sound FlatSized fun _ => false)
    (fun sound => (collapse_invisibleProduct sound).1) ?_ sound
  intro tree sound
  obtain ⟨_, flat, finished⟩ := collapse_invisibleProduct sound
  generalize (Pass.invisibleProduct.visit tree).collapse = visited at flat finished
  cases visited with
  | cluster elements =>
    refine ⟨List.forall_mem_map.mpr fun element member => ?_,
      List.forall_mem_map.mpr fun element member => ?_⟩
    · exact elements?_apply _ (flat element member)
    · have becomes := becomes_of_inner .invisibleProduct (flat element member)
      have visible := finished element member
      rw [Bool.eq_false_iff] at visible ⊢
      exact visible ∘ becomes.isOperator (by decide) (by decide)
  | _ => exact ⟨trivial, trivial⟩

def stage (count : Nat) (tree : Tree) : Tree :=
  (Pass.all.take count).foldl (fun folded pass => pass.apply folded) tree

theorem builds_flat : Grammar.Builds (Sound Flat fun _ => false) where
  leaf reader listed {input leaf length} found := by
    obtain ⟨text, own, _⟩ := Lexeme.leafText?_of_reader listed found
    cases leaf with
    | identifier _ | operator _ | text _ | number _ =>
      exact ⟨trivial, below_of_children (by simp [children])⟩
    | _ => cases own
  cluster _ _ flat all := ⟨flat, below_of_children all⟩
  row _ all := ⟨trivial, below_of_children all⟩
  grid _ _ all := by
    refine ⟨trivial, below_of_children fun child member => ?_⟩
    obtain ⟨cells, row, place⟩ := List.mem_flatten.mp member
    exact (all cells row).2 child place
  bracketed _ _ inside :=
    ⟨trivial, below_of_children fun child member => (inside child (Option.mem_toList.mp member)).1⟩

theorem flatSized_parse (source : String) : Sound FlatSized (fun _ => false) (parse source) := by
  rw [← forall_nodes_iff]
  rcases parse_builds (builds_raw filled_foldable filled_readable) source with empty | built
  · rw [empty, nodes_eq]
    simp [emptyGrid, children, FlatSized, Flat, Sized]
  · rcases parse_builds builds_flat source with empty | flat
    · rw [empty, nodes_eq]
      simp [emptyGrid, children, FlatSized, Flat, Sized]
    · intro node member
      exact ⟨forall_nodes_iff.mpr flat node member,
        built.forall_nodes (by simp [emptyRow, Sized]) (fun built => built.here.1.sized) node member⟩

theorem firm_stage (source : String) (count : Nat) : Firm (stage (count + 1) (parse source)) := by
  have first (tree : Tree) : stage (count + 1) tree = (Pass.all.tail.take count).foldl
      (fun folded pass => pass.apply folded) (Pass.invisibleProduct.apply tree) := rfl
  rw [first]
  rcases parse_builds (builds_raw filled_foldable filled_readable) source with empty | built
  · rw [empty, apply_emptyGrid]
    generalize Pass.all.tail.take count = passes
    induction passes with
    | nil => exact .inr (.inl rfl)
    | cons pass passes ih => rwa [List.foldl_cons, apply_emptyGrid]
  · have others : Pass.invisibleProduct ∉ Pass.all.tail.take count := fun member =>
      absurd (List.mem_of_mem_take member) (by decide)
    exact .inr (.inr (built_foldl_apply filled_foldable others
      (built_invisibleProduct filled_foldable built)))

theorem stage_succ {count : Nat} (next : Pass.all[count]? = some pass) (tree : Tree) :
    stage (count + 1) tree = pass.apply (stage count tree) := by
  simp [stage, List.take_add_one, next]

theorem flat_stage (source : String) :
    Sound Flat (fun _ => false) (stage 3 (parse source)) := by
  have step {tree : Tree} {pass : Pass} (product : pass ≠ .invisibleProduct)
      (other : pass ≠ .fractions) (firm : Firm tree) (flat : Sound Flat (fun _ => false) tree) :
      Sound Flat (fun _ => false) (pass.apply tree) := by
    have kept := (stays_flat other).below_apply product firm flat.2
    exact ⟨kept.2 flat.1, kept.1⟩
  have first : Sound Flat (fun _ => false) (stage 1 (parse source)) :=
    forall_nodes_iff.mp fun node member =>
      (finished_invisibleProduct (flatSized_parse source) node member).1
  have second : Sound Flat (fun _ => false) (stage 2 (parse source)) :=
    step (by decide) (by decide) (firm_stage source 0) first
  exact step (by decide) (by decide) (firm_stage source 1) second

theorem eq_of_next {count : Nat} (next : Pass.all[count + 1]? = some pass) :
    pass ≠ .invisibleProduct ∧ (pass = .ranges → count = 2) := by
  match count with
  | 0 | 1 | 2 | 3 | 4 | 5 | 6 | 7 =>
    cases next
    decide
  | _ + 8 => cases next

theorem finished_stage (source : String) {count : Nat} (next : Pass.all[count]? = some pass)
    (other : pass ≠ .exponents) :
    ∀ node ∈ (stage (count + 1) (parse source)).nodes, pass.Finished node := by
  rw [stage_succ next]
  cases count with
  | zero =>
    cases next
    exact fun node member => (finished_invisibleProduct (flatSized_parse source) node member).2
  | succ count =>
    obtain ⟨product, ranges⟩ := eq_of_next next
    refine finished_apply product other (firm_stage source count) fun here => ?_
    rw [ranges here]
    exact flat_stage source

/-- For every source and every pass but the one for exponents: in the tree behind the pass, it has
finished at all nodes, and running it again changes nothing. -/
theorem apply_apply_stage (source : String) {count : Nat} {pass : Pass}
    (next : Pass.all[count]? = some pass) (other : pass ≠ .exponents) :
    (∀ node ∈ (pass.apply (stage count (parse source))).nodes, pass.Finished node) ∧
      pass.apply (pass.apply (stage count (parse source))) =
        pass.apply (stage count (parse source)) := by
  have finished := finished_stage source next other
  rw [← stage_succ next]
  exact ⟨finished, apply_eq_self (firm_stage source count) finished⟩

theorem roots_apply_nested_radicals :
    Pass.all[4]? = some .roots ∧ Pass.roots ≠ .exponents ∧
      Pass.roots.apply (Pass.roots.apply (stage 4 (parse "sqrt sqrt[3] (x_1 / y)"))) =
        Pass.roots.apply (stage 4 (parse "sqrt sqrt[3] (x_1 / y)")) :=
  ⟨rfl, by decide, (apply_apply_stage "sqrt sqrt[3] (x_1 / y)" rfl (by decide)).2⟩

end PlainMath.Layout
