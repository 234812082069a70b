import PlainMath.Proofs.Grammar.Accounting
import PlainMath.Proofs.Layout.Passes
import PlainMath.Proofs.Markup.Tightened

/-! The options of the written text are cosmetic: they change the display mode that the root
names, and otherwise only the blanks around lines. No line of a source is left when its tree is
read, so no text in the tree can break a line of the markup. -/
namespace PlainMath
open Layout Text

namespace Tree

def Unbroken (tree : Tree) : Prop := ∀ text ∈ tree.texts, '\n' ∉ text.toList

instance (tree : Tree) : Decidable tree.Unbroken :=
  inferInstanceAs (Decidable (∀ text ∈ tree.texts, '\n' ∉ text.toList))

theorem unbroken_of_nil {tree : Tree} (silent : tree.texts = []) : tree.Unbroken := by
  simp [Unbroken, silent]

theorem unbroken_foldable : Foldable Unbroken where
  map {f tree} unbroken := by cases tree <;> exact unbroken
  blank := by decide
  superscriptSign := by decide
  logicalNot := by decide
  leftover {symbol} unbroken := by
    unfold Layout.leftover
    split
    · decide
    · split
      · decide
      · exact unbroken
  primes count := by
    refine List.forall_mem_singleton.mpr ?_
    rw [String.toList_ofList, List.mem_flatten]
    rintro ⟨prime, copied, member⟩
    rw [List.eq_of_mem_replicate copied] at member
    exact absurd member (by decide)
  row _ := unbroken_of_nil rfl
  cluster _ := unbroken_of_nil rfl
  fraction := unbroken_of_nil rfl
  scripted _ := unbroken_of_nil rfl
  root := unbroken_of_nil rfl
  limits unbroken := unbroken
  stackedLimits := unbroken_of_nil rfl
  brace := unbroken_of_nil rfl
  sideBySide _ _ _ _ := unbroken_of_nil rfl

end Tree

theorem not_mem_escape {raw : List Char} (free : '\n' ∉ raw) : '\n' ∉ (escape raw).toList := by
  rw [escape, String.toList_ofList, List.mem_flatMap]
  rintro ⟨c, member, inside⟩
  unfold escapeChar at inside
  split at inside
  · exact absurd inside (by decide)
  · exact absurd inside (by decide)
  · exact absurd inside (by decide)
  · exact free (List.mem_singleton.mp inside ▸ member)

theorem unbroken_of_reader {reader : List Char → Option (Tree × Nat)}
    (listed : reader ∈ Lexeme.readers) {input : List Char} {leaf : Tree} {length : Nat}
    (found : reader input = some (leaf, length)) (free : '\n' ∉ input) : leaf.Unbroken := by
  have entries : ∀ entry ∈ Symbol.identifierEntries ++ Symbol.operatorEntries,
      '\n' ∉ entry.2.toList := by decide +kernel
  obtain ⟨text, own, made⟩ := Lexeme.leafText?_of_reader listed found
  have whole : '\n' ∉ text.toList := by
    rcases made with ⟨raw, taken, rfl⟩ | ⟨entry, member, rfl⟩ | ⟨word, rfl, letters⟩
    · exact not_mem_escape fun member => free (taken member)
    · exact entries entry member
    · rw [String.toList_ofList]
      exact fun member => absurd (letters _ member) (by decide)
  cases leaf with
  | identifier _ | operator _ | text _ | number _ =>
    cases own
    exact List.forall_mem_singleton.mpr whole
  | _ => cases own

def Token.Unbroken : Token → Prop
  | .leaf tree => tree.Unbroken
  | .delimiter glyph => '\n' ∉ glyph.toList

theorem Segmented.unbroken {input rest : List Char} {pieces : List Piece}
    (segmented : Segmented input pieces rest) (free : '\n' ∉ input) :
    ∀ token ∈ pieces.filterMap Piece.token?, token.Unbroken := by
  have openers : ∀ bracket ∈ Bracket.all, '\n' ∉ bracket.glyph.toList := by decide
  have closers : ∀ closer ∈ Bracket.closers, '\n' ∉ closer.2.toList := by decide
  induction segmented with
  | done => simp
  | @piece piece behind rest pieces fits _ ih =>
    have later := ih fun member => free (List.mem_append_right _ member)
    cases piece with
    | blank | semicolon => exact later
    | opener bracket => exact List.forall_mem_cons.mpr ⟨openers bracket fits, later⟩
    | closer text glyph => exact List.forall_mem_cons.mpr ⟨closers (text, glyph) fits, later⟩
    | dots => exact List.forall_mem_cons.mpr ⟨List.forall_mem_singleton.mpr (by decide), later⟩
    | lexeme text leaf =>
      obtain ⟨_, reader, listed, found⟩ := fits
      exact List.forall_mem_cons.mpr ⟨unbroken_of_reader listed found free, later⟩

namespace Tree

theorem tokens_subset {tree child : Tree} (member : child ∈ tree.children) :
    child.tokens ⊆ tree.tokens := by
  intro token inside
  have below := List.mem_flatMap.mpr ⟨child, member, inside⟩
  rw [tokens_eq tree]
  exact List.mem_append_left _ (List.mem_append_right _ below)

theorem builds_unbroken : Grammar.Builds fun tree =>
    (∀ token ∈ tree.tokens, token.Unbroken) → Built (Raw Unbroken) tree where
  leaf reader listed {input leaf length} found unbroken := by
    obtain ⟨text, own, _⟩ := Lexeme.leafText?_of_reader listed found
    have here : leaf.Unbroken := unbroken (.leaf leaf) (by simp [tokens_leaf own])
    cases leaf with
    | identifier _ | operator _ | text _ | number _ => exact .leaf ⟨here, by simp⟩ rfl
    | _ => cases own
  cluster several visible _ all unbroken := by
    refine .node ⟨unbroken_of_nil rfl, ?_⟩ (fun part member => ?_) (by simp [slots])
    · rintro elements same
      cases same
      exact visible
    · exact all part member fun token inside => unbroken token (tokens_subset member inside)
  row _ all unbroken := by
    refine .node ⟨unbroken_of_nil rfl, by simp⟩ (fun part member => ?_) (by simp [slots])
    exact all part member fun token inside => unbroken token (tokens_subset member inside)
  grid _ _ all unbroken := by
    refine .node ⟨unbroken_of_nil rfl, by simp⟩ (fun part member => ?_) (by simp [slots])
    obtain ⟨cells, row, place⟩ := List.mem_flatten.mp member
    exact (all cells row).2 part place fun token inside =>
      unbroken token (tokens_subset member inside)
  bracketed {bracket right contents} _ _ inner unbroken := by
    have left := unbroken (.delimiter bracket.glyph) (by simp [tokens_bracketed])
    have right : '\n' ∉ right.toList := by
      by_cases open' : right = ""
      · simp [open']
      · exact unbroken (.delimiter right) (by simp [tokens_bracketed, open'])
    refine .node ⟨?_, by simp⟩ (fun part member => ?_) (by simp [slots])
    · exact List.forall_mem_cons.mpr ⟨left, List.forall_mem_singleton.mpr right⟩
    · exact (inner part (Option.mem_toList.mp member)).1 fun token inside =>
        unbroken token (tokens_subset member inside)

end Tree

theorem unbroken_parse_layout {source : String} (free : '\n' ∉ source.toList) :
    ∀ node ∈ (parse source).layout.nodes, node.Unbroken := by
  obtain ⟨pieces, segmented, tokens⟩ := Grammar.grid_accounted
    (Grammar.brackets_accounts source.toList.length) (Cursor.start source.toList)
  have shown : ∀ token ∈ (parse source).tokens, token.Unbroken := tokens ▸ segmented.unbroken free
  rcases parse_builds Tree.builds_unbroken source with empty | built
  · rw [empty, layout_emptyGrid, Tree.nodes_eq]
    simp [Tree.emptyGrid, Tree.children, Tree.Unbroken, Tree.texts]
  · have drawn := built_layout Tree.unbroken_foldable (built shown)
    exact drawn.forall_nodes (Tree.unbroken_of_nil rfl) fun built => built.here

theorem unbroken_compileTree (source : String) (options : Options) :
    ∀ node ∈ (compileTree source options).nodes, node.Unbroken := by
  refine unbroken_parse_layout ?_
  rw [preprocess, String.toList_ofList, Source.flatten, List.mem_map]
  rintro ⟨c, _, same⟩
  split at same <;> simp_all

theorem tighten_rootMarkup {tree : Tree} (unbroken : ∀ node ∈ tree.nodes, node.Unbroken)
    (mode : DisplayMode) {indent : String} (blank : isBlankText indent.toList = true) :
    tighten ((tree.rootMarkup mode).text (.pretty indent) 0) =
      (tree.rootMarkup mode).text .compact 0 := by
  have named : Markup.Property (some ("display", mode.name)) := by
    cases mode <;> simp [Markup.Property, DisplayMode.name]
  have inside : ∀ part ∈ [tree.markup], part.Lined :=
    List.forall_mem_singleton.mpr (Markup.lined_draws.markup unbroken)
  exact Markup.tighten_text (Markup.lined_element List.mem_cons_self named inside) blank 0

theorem text_rootMarkup (tree : Tree) (mode : DisplayMode) :
    (tree.rootMarkup mode).text .compact 0 =
      "<math display=\"" ++ mode.name ++ "\">" ++ tree.markup.text .compact 1 ++ "</math>" := by
  have opened : Markup.startTag "math" (some ("display", mode.name)) =
      "<math display=\"" ++ mode.name ++ "\">" := by
    cases mode <;> decide
  have closed : Markup.endTag "math" = "</math>" := by decide
  rw [← String.toList_inj, Tree.rootMarkup, Markup.text_element, Style.write, Style.write, opened,
    closed]
  simp

def Options.contentOf (options : Options) (written : String) : String :=
  if options.pretty then tighten written else written

theorem contentOf_compile (source : String) {options : Options}
    (blank : options.pretty = true → isBlankText options.indent.toList = true) :
    options.contentOf (compile source options) =
      ((compileTree source options).rootMarkup options.mode).text .compact 0 := by
  unfold Options.contentOf compile Tree.write Options.style
  by_cases pretty : options.pretty = true
  · simp only [if_pos pretty]
    exact tighten_rootMarkup (unbroken_compileTree source options) options.mode (blank pretty)
  · simp only [if_neg pretty]

/-- Pretty text tightens to compact text, and of two ways to write a source only the display mode
is left to differ. -/
theorem compile_differs_in_mode :
    (∀ (tree : Tree) (options : Options), (∀ node ∈ tree.nodes, node.Unbroken) →
      isBlankText options.indent.toList = true →
      tighten (tree.write { options with pretty := true }) =
        tree.write { options with pretty := false }) ∧
    ∀ (source : String) (first second : Options), first.tabWidth = second.tabWidth →
      (first.pretty = true → isBlankText first.indent.toList = true) →
      (second.pretty = true → isBlankText second.indent.toList = true) →
      ∃ body : String,
        first.contentOf (compile source first) =
          "<math display=\"" ++ first.mode.name ++ "\">" ++ body ++ "</math>" ∧
        second.contentOf (compile source second) =
          "<math display=\"" ++ second.mode.name ++ "\">" ++ body ++ "</math>" := by
  refine ⟨fun tree options unbroken blank => tighten_rootMarkup unbroken options.mode blank, ?_⟩
  intro source first second widths blank blank'
  have same : compileTree source first = compileTree source second := by
    rw [compileTree, compileTree, widths]
  refine ⟨(compileTree source first).markup.text .compact 1, ?_, ?_⟩
  · rw [contentOf_compile source blank, text_rootMarkup]
  · rw [contentOf_compile source blank', text_rootMarkup, same]

theorem compile_differs_in_mode_lines :
    (∀ node ∈ (Tree.bracketed "(" ")" (some (.text " a b "))).nodes, node.Unbroken) ∧
    isBlankText "\n\t".toList = true ∧
    tighten ((Tree.bracketed "(" ")" (some (.text " a b "))).write ⟨.block, true, "\n\t", 2⟩) =
      (Tree.bracketed "(" ")" (some (.text " a b "))).write ⟨.block, false, "\n\t", 2⟩ ∧
    ∃ body : String,
      tighten (compile "sum\x7bi\n\t<--->\n  x y\x7d \" a\n b \"" ⟨.block, true, "\n\t", 2⟩) =
        "<math display=\"block\">" ++ body ++ "</math>" ∧
      compile "sum\x7bi\n\t<--->\n  x y\x7d \" a\n b \"" ⟨.inline, false, "--", 2⟩ =
        "<math display=\"inline\">" ++ body ++ "</math>" := by
  have blank : isBlankText "\n\t".toList = true := by decide
  have unbroken : ∀ node ∈ (Tree.bracketed "(" ")" (some (.text " a b "))).nodes,
      node.Unbroken := by
    simp only [Tree.nodes_eq, Tree.children, Option.toList, List.flatMap_cons, List.flatMap_nil]
    decide
  refine ⟨unbroken, blank, ?_, ?_⟩
  · exact compile_differs_in_mode.1 _ ⟨.block, true, "\n\t", 2⟩ unbroken blank
  · exact compile_differs_in_mode.2 _ ⟨.block, true, "\n\t", 2⟩ ⟨.inline, false, "--", 2⟩ rfl
      (fun _ => blank) (by simp)

end PlainMath
