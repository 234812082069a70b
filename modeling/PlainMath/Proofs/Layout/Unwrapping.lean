import PlainMath.Proofs.Arrow.Written
import PlainMath.Proofs.Grammar.Operands
import PlainMath.Proofs.Layout.Repeated

/-! Round and curly brackets around a simple operand are not drawn: in a fraction, a script or a
root the operand stands for itself. The two spellings are read as different trees, and the pass
that makes the fraction, the script or the root makes one tree of both. -/
namespace PlainMath
open Layout

/-- A leaf, by itself or in brackets that are not those of a range. -/
inductive Shows (leaf : Tree) : Tree → Prop
  | bare : Shows leaf leaf
  | bracketed {left : String} (right : String) (other : left ≠ "[") :
      Shows leaf (.bracketed left right (some leaf))

namespace Shows
variable {leaf tree : Tree} (shows : Shows leaf tree) (term : leaf.IsTerm)
include shows term

theorem isOperator (glyph : String) : tree.isOperator glyph = false := by
  cases shows with
  | bare => cases term <;> rfl
  | bracketed => rfl

theorem rangeContents? : rangeContents? tree = none := by
  cases shows with
  | bare => cases term <;> rfl
  | bracketed right other => exact if_neg other

theorem radical? : radical? tree = none := by
  cases shows with
  | bare => cases term <;> rfl
  | bracketed => rfl

theorem unwrap : tree.unwrap = leaf := by
  cases shows with
  | bare => cases term <;> rfl
  | bracketed => rfl

omit shows in
theorem apply_leaf (pass : Pass) : pass.apply leaf = leaf := by
  rw [Pass.apply_eq]
  cases term <;> cases pass <;> rfl

theorem apply (pass : Pass) : pass.apply tree = tree := by
  cases shows with
  | bare => exact apply_leaf term pass
  | @bracketed left right other =>
    have visited : (pass.visit (.bracketed left right (some leaf))).collapse =
        .bracketed left right (some leaf) := by cases pass <;> rfl
    rw [Pass.apply_eq, visited]
    exact congrArg (fun inner => Tree.bracketed left right (some inner)) (apply_leaf term pass)

end Shows

namespace Layout

theorem layout_eq_of_stage {first second : Tree} (count : Nat)
    (same : stage count first = stage count second) : first.layout = second.layout := by
  have later (tree : Tree) : tree.layout =
      (Pass.all.drop count).foldl (fun folded pass => pass.apply folded) (stage count tree) := by
    rw [stage, ← List.foldl_append, List.take_append_drop]
    rfl
  rw [later first, later second, same]

theorem stage_eq_self {tree : Tree} {count : Nat}
    (kept : ∀ pass ∈ Pass.all.take count, pass.apply tree = tree) : stage count tree = tree := by
  unfold stage
  generalize Pass.all.take count = passes at kept
  induction passes with
  | nil => rfl
  | cons pass passes ih =>
    obtain ⟨first, others⟩ := List.forall_mem_cons.mp kept
    rw [List.foldl_cons, first, ih others]

theorem apply_of_finished {pass : Pass} {tree : Tree} (finished : pass.Finished tree)
    (whole : tree.collapse = tree) (below : ∀ child ∈ tree.children, pass.apply child = child) :
    pass.apply tree = tree := by
  rw [Pass.apply_eq, Pass.visit_of_finished finished, whole]
  exact mapChildren_eq_self below

def Pass.signs : Pass → List String
  | .invisibleProduct => [Glyph.invisibleProduct]
  | .subscripts => [Glyph.subscript]
  | .exponents => [Glyph.superscript]
  | .roots => [Glyph.radical]
  | _ => []

variable {leaf leaf' first second : Tree} {pass : Pass} {glyph : String}

theorem apply_sign (early : pass ∈ Pass.all.take 5) :
    pass.apply (.operator glyph) = .operator glyph := by
  rw [apply_operator]
  cases pass with
  | operatorMeaning => exact absurd early (by decide)
  | _ => rfl

theorem finished_prefixed (early : pass ∈ Pass.all.take 5) (other : glyph ∉ pass.signs)
    (shows : Shows leaf second) (term : leaf.IsTerm) :
    pass.Finished (.cluster [.operator glyph, second]) := by
  have sign (own : String) : Tree.isOperator own (.operator glyph) = (glyph == own) := rfl
  cases pass with
  | invisibleProduct =>
    simpa [Pass.Finished, shows.isOperator term, sign, Pass.signs] using other
  | subscripts => simpa [Pass.Finished, Apart, Pass.joins, sign, isNumbered, Pass.signs] using other
  | exponents => simp [Pass.Finished, Apart, Pass.joins, Tree.isOperand]
  | ranges => simp [Pass.Finished, Apart, Pass.joins, shows.rangeContents? term]
  | roots => simpa [Pass.Finished, Apart, Pass.joins, radical?, Pass.signs] using other
  | _ => exact absurd early (by decide)

theorem finished_joint (early : pass ∈ Pass.all.take 5) (other : glyph ∉ pass.signs)
    (shows : Shows leaf first) (term : leaf.IsTerm) (shows' : Shows leaf' second)
    (term' : leaf'.IsTerm) : pass.Finished (.cluster [first, .operator glyph, second]) := by
  have free := shows.isOperator term
  have behind := finished_prefixed early other shows' term'
  cases pass with
  | invisibleProduct => exact List.forall_mem_cons.mpr ⟨free _, behind⟩
  | subscripts => exact ⟨by simp [Pass.joins, free, isNumbered], behind⟩
  | exponents =>
    have apart : (glyph == Glyph.superscript) = false := by simpa [Pass.signs] using other
    exact ⟨by simp [Pass.joins, Tree.isOperator, apart], behind⟩
  | ranges => exact ⟨by simp [Pass.joins, rangeContents?], behind⟩
  | roots => exact ⟨by simp [Pass.joins, shows.radical? term], behind⟩
  | _ => exact absurd early (by decide)

section
variable (shows : Shows leaf first) (term : leaf.IsTerm) (shows' : Shows leaf' second)
  (term' : leaf'.IsTerm)
include shows term shows' term'

theorem stage_joint {count : Nat} (early : count ≤ 5)
    (others : ∀ pass ∈ Pass.all.take count, glyph ∉ pass.signs) :
    stage count (.cluster [first, .operator glyph, second]) =
      .cluster [first, .operator glyph, second] := by
  refine stage_eq_self fun pass member => ?_
  have listed : pass ∈ Pass.all.take 5 := (List.take_prefix_take_left early).subset member
  have finished := finished_joint listed (others pass member) shows term shows' term'
  refine apply_of_finished finished rfl ?_
  simpa [Tree.children] using ⟨shows.apply term pass, apply_sign listed, shows'.apply term' pass⟩

theorem stage_fraction : stage 6 (.cluster [first, .operator Glyph.fractionBar, second]) =
    .fraction leaf leaf' := by
  have visited : (Pass.fractions.visit
      (.cluster [first, .operator Glyph.fractionBar, second])).collapse =
        .fraction first.unwrap second.unwrap := rfl
  have next : Pass.all[5]? = some .fractions := rfl
  rw [stage_succ next, stage_joint shows term shows' term' (by decide) (by decide), Pass.apply_eq,
    visited, shows.unwrap term, shows'.unwrap term']
  simp only [Tree.mapChildren, Shows.apply_leaf term, Shows.apply_leaf term']

omit shows in
theorem stage_subscript : stage 2 (.cluster [leaf, .operator Glyph.subscript, second]) =
    .scripted leaf (some leaf') none := by
  have folded : subscriptRule.fold [leaf, .operator Glyph.subscript, second] =
      [.scripted leaf (some second.unwrap) none] := by
    have operand : leaf.isOperand = true := by cases term <;> rfl
    have sign : Tree.isOperator Glyph.subscript (.operator Glyph.subscript) = true := by decide
    simp [ScriptRule.fold, ScriptRule.step, ScriptRule.enter, ScriptRule.close, subscriptRule,
      shows'.isOperator term', operand, sign]
  have visited : (Pass.subscripts.visit
      (.cluster [leaf, .operator Glyph.subscript, second])).collapse =
        .scripted leaf (some second.unwrap) none := by
    simp only [Pass.visit, subscripts, folded]
    rfl
  have next : Pass.all[1]? = some .subscripts := rfl
  rw [stage_succ next, stage_joint .bare term shows' term' (by decide) (by decide), Pass.apply_eq,
    visited, shows'.unwrap term']
  simp only [Tree.mapChildren, Shows.apply_leaf term, Option.map_some, Shows.apply_leaf term',
    Option.map_none]

omit shows in
theorem stage_superscript : stage 3 (.cluster [leaf, .operator Glyph.superscript, second]) =
    .scripted leaf none (some leaf') := by
  have folded : exponentRule.fold [leaf, .operator Glyph.superscript, second] =
      [.scripted leaf none (some second.unwrap)] := by
    have operand : leaf.isOperand = true := by cases term <;> rfl
    have sign : Tree.isOperator Glyph.superscript (.operator Glyph.superscript) = true := by decide
    have raised : raise leaf second.unwrap = .scripted leaf none (some second.unwrap) := by
      cases term <;> rfl
    simp [ScriptRule.fold, ScriptRule.step, ScriptRule.enter, ScriptRule.close, exponentRule,
      shows'.isOperator term', operand, sign, raised]
  have visited : (Pass.exponents.visit
      (.cluster [leaf, .operator Glyph.superscript, second])).collapse =
        .scripted leaf none (some second.unwrap) := by
    simp only [Pass.visit, exponents, folded]
    rfl
  have next : Pass.all[2]? = some .exponents := rfl
  rw [stage_succ next, stage_joint .bare term shows' term' (by decide) (by decide), Pass.apply_eq,
    visited, shows'.unwrap term']
  simp only [Tree.mapChildren, Shows.apply_leaf term, Option.map_some, Shows.apply_leaf term',
    Option.map_none]

end

section
variable (shows : Shows leaf second) (term : leaf.IsTerm)
include shows term

theorem foldRoots_prefixed : foldRoots [.operator Glyph.radical, second] = [.root leaf none] := by
  have alone : rootStep second [] = [second] := by
    unfold rootStep
    rw [shows.radical? term]
  rw [foldRoots, List.foldr_cons, List.foldr_cons, List.foldr_nil, alone, ← shows.unwrap term]
  rfl

theorem stage_radical {tree : Tree} (parts : tree.children = [.operator Glyph.radical, second])
    (whole : tree.collapse = tree) (finished : ∀ pass ∈ Pass.all.take 4, pass.Finished tree)
    (visited : (roots tree).collapse = .root leaf none) : stage 5 tree = .root leaf none := by
  have kept : stage 4 tree = tree := by
    refine stage_eq_self fun pass member => apply_of_finished (finished pass member) whole ?_
    have listed : pass ∈ Pass.all.take 5 := (List.take_prefix_take_left (by decide)).subset member
    simpa [parts] using ⟨apply_sign listed, shows.apply term pass⟩
  have next : Pass.all[4]? = some .roots := rfl
  rw [stage_succ next, kept, Pass.apply_eq, Pass.visit, visited]
  exact congrArg (Tree.root · none) (Shows.apply_leaf term .roots)

theorem stage_radical_cluster :
    stage 5 (.cluster [.operator Glyph.radical, second]) = .root leaf none := by
  refine stage_radical shows term rfl rfl (fun pass member => ?_) ?_
  · have listed : pass ∈ Pass.all.take 5 := (List.take_prefix_take_left (by decide)).subset member
    have others : ∀ pass ∈ Pass.all.take 4, Glyph.radical ∉ pass.signs := by decide
    exact finished_prefixed listed (others pass member) shows term
  · rw [roots, foldRoots_prefixed shows term]
    rfl

theorem stage_radical_row :
    stage 5 (.row [.operator Glyph.radical, second]) = .root leaf none := by
  refine stage_radical shows term rfl rfl (fun pass member => ?_) ?_
  · cases pass with
    | roots | fractions | braces => exact absurd member (by decide)
    | _ => trivial
  · rw [roots, foldRoots_prefixed shows term]
    rfl

end
end Layout

namespace Source

theorem flatten_eq_expand (tabWidth : Nat) {line : List Char} (single : '\n' ∉ line) {c : Char}
    (first : (expand tabWidth line).head? = some c) (shown : Text.isBlank c = false)
    (other : c ≠ '<') : flatten tabWidth line = expand tabWidth line := by
  refine flatten_single tabWidth single ?_
  rw [Bool.eq_false_iff]
  intro arrow
  have free := not_mem_expand tabWidth (by decide) single
  obtain ⟨lead, inner, tail, blank, _, whole⟩ := (Arrow.isArrowLine_iff free).mp arrow
  rw [whole] at first
  cases lead with
  | nil => exact other (Option.some.inj first).symm
  | cons d lead =>
    cases first
    have blank := List.all_eq_true.mp blank c List.mem_cons_self
    rw [shown] at blank
    cases blank

end Source

namespace Operand
open PlainMath.Symbol Lexeme Grammar
variable {text : List Char}

theorem mem_numeral {numeral : List Char} (spelled : Numeral numeral) {c : Char}
    (member : c ∈ numeral) : c.isDigit = true ∨ isSeparator c = true := by
  induction spelled with
  | last digit => exact .inl (List.mem_singleton.mp member ▸ digit)
  | digit digit _ ih =>
    rcases List.mem_cons.mp member with rfl | later
    · exact .inl digit
    · exact ih later
  | separated digit separator _ ih =>
    rcases List.mem_cons.mp member with rfl | later
    · exact .inl digit
    · rcases List.mem_cons.mp later with rfl | later
      · exact .inr separator
      · exact ih later

theorem not_mem_break (operand : Operand text) : '\n' ∉ text := by
  cases operand with
  | number spelled => exact fun member => absurd (mem_numeral spelled member) (by decide)
  | letter letter => exact fun member => absurd (List.mem_singleton.mp member ▸ letter) (by decide)
  | word _ letters _ => exact fun member => absurd (letters _ member) (by decide)
  | text _ single => simpa using single
  | name _ single => simpa using single

theorem expand (operand : Operand text) (tabWidth : Nat) :
    Operand (Source.expand tabWidth text) := by
  have own {text : List Char}
      (spelled : ∀ c ∈ text, (c.isDigit = true ∨ isSeparator c = true) ∨ isLetter c = true) :
      Source.expand tabWidth text = text :=
    Source.expand_eq_self tabWidth (fun member => absurd (spelled _ member) (by decide))
      fun member => absurd (spelled _ member) (by decide)
  have kept {content : List Char} {c : Char} (other : c ≠ ' ') (absent : c ∉ content) :=
    Source.not_mem_expand tabWidth other absent
  cases operand with
  | number spelled =>
    rw [own fun c member => .inl (mem_numeral spelled member)]
    exact .number spelled
  | letter letter =>
    rw [own fun c member => .inr (List.mem_singleton.mp member ▸ letter)]
    exact .letter letter
  | word long letters unknown =>
    rw [own fun c member => .inr (letters c member)]
    exact .word long letters unknown
  | text free single =>
    rw [Source.expand_cons _ (by decide) (by decide), Source.expand_append]
    exact .text (kept (by decide) free) (kept (by decide) single)
  | name free single =>
    rw [Source.expand_cons _ (by decide) (by decide), Source.expand_append]
    exact .name (kept (by decide) free) (kept (by decide) single)

theorem isBlank_of_starts {c : Char} (start : starts c = true) : Text.isBlank c = false := by
  simp only [starts, Bool.or_eq_true, beq_iff_eq] at start
  have visible (bounds : 48 ≤ c.toNat ∧ c.toNat ≤ 122) : Text.isBlank c = false := by
    rw [Bool.eq_false_iff]
    simp only [Text.isBlank, ne_eq, Bool.or_eq_true, Bool.and_eq_true, decide_eq_true_eq,
      beq_iff_eq]
    omega
  rcases start with ((digit | letter) | rfl) | rfl
  · have := toNat_of_digit digit
    exact visible (by omega)
  · have := toNat_of_letter letter
    exact visible (by omega)
  · decide
  · decide

end Operand

namespace Grammar
open Lexeme

theorem ReadsAs.visible {text : List Char} {item : Tree} (reads : ReadsAs text item) :
    ∃ c, text.head? = some c ∧ Text.isBlank c = false ∧ c ≠ '<' := by
  obtain ⟨c, first, start | ⟨pair, opener⟩⟩ := reads.head
  · refine ⟨c, first, Operand.isBlank_of_starts start, ?_⟩
    rintro rfl
    exact absurd start (by decide)
  · refine ⟨c, first, ?_⟩
    cases pair <;> cases opener <;> decide

end Grammar

namespace Pair

theorem expand_around (pair : Pair) (text : List Char) (tabWidth : Nat) :
    Source.expand tabWidth (pair.around text) = pair.around (Source.expand tabWidth text) := by
  have opener : Source.expand tabWidth pair.opener = pair.opener :=
    Source.expand_eq_self tabWidth (by cases pair <;> decide) (by cases pair <;> decide)
  have closer : Source.expand tabWidth pair.closer = pair.closer :=
    Source.expand_eq_self tabWidth (by cases pair <;> decide) (by cases pair <;> decide)
  rw [around, Source.expand_append, Source.expand_append, opener, closer, around]

theorem not_mem_around (pair : Pair) {text : List Char} (single : '\n' ∉ text) :
    '\n' ∉ pair.around text := by
  cases pair <;> simpa [around, opener, closer, bracket] using single

theorem shows_wrap {pair : Pair} (plain : pair = .round ∨ pair = .curly) (leaf : Tree) :
    Shows leaf (pair.wrap leaf) := by
  refine .bracketed _ ?_
  rcases plain with rfl | rfl <;> decide

end Pair

open Grammar

structure Spells (options : Options) (leaf : Tree) (text : List Char) (item : Tree) : Prop where
  shows : Shows leaf item
  single : '\n' ∉ text
  reads : ReadsAs (Source.expand options.tabWidth text) item
  unbarred : (Source.expand options.tabWidth text).head? ≠ some '|'

theorem Operand.spells {text : List Char} (operand : Operand text) (options : Options) {pair : Pair}
    (plain : pair = .round ∨ pair = .curly) : ∃ leaf : Tree, leaf.IsTerm ∧
      Spells options leaf text leaf ∧ Spells options leaf (pair.around text) (pair.wrap leaf) := by
  have expanded := operand.expand options.tabWidth
  obtain ⟨leaf, term, bare, wrapped⟩ := expanded.readsAs
  refine ⟨leaf, term, ⟨.bare, operand.not_mem_break, bare, ?_⟩,
    pair.shows_wrap plain leaf, pair.not_mem_around operand.not_mem_break, ?_, ?_⟩
  · obtain ⟨c, here, start⟩ := expanded.head?
    rw [here]
    rintro same
    cases same
    exact absurd start (by decide)
  · exact pair.expand_around text options.tabWidth ▸ wrapped pair
  · rw [pair.expand_around]
    rcases plain with rfl | rfl <;> simp [Pair.around, Pair.opener, Pair.bracket]

section
variable {options : Options} {left right : List Char} {leaf leaf' first second : Tree}

theorem compileTree_joint (joint : Joint) (spells : Spells options leaf left first)
    (spells' : Spells options leaf' right second) :
    compileTree (String.ofList (left ++ joint.sign :: right)) options =
      (Tree.cluster [first, .operator joint.glyph, second]).layout := by
  have whole : Source.expand options.tabWidth (left ++ joint.sign :: right) =
      Source.expand options.tabWidth left ++ joint.sign ::
        Source.expand options.tabWidth right := by
    rw [Source.expand_append,
      Source.expand_cons _ (by cases joint <;> decide) (by cases joint <;> decide)]
  have line : '\n' ∉ left ++ joint.sign :: right := by
    cases joint <;> simp [spells.single, spells'.single, Joint.sign]
  obtain ⟨c, here, shown, arrow⟩ := spells.reads.visible
  have flat : Source.flatten options.tabWidth (left ++ joint.sign :: right) = _ :=
    Source.flatten_eq_expand _ line (by rw [whole, List.head?_append, here]; rfl) shown arrow
  rw [compileTree, Tree.ofSource, preprocess, String.toList_ofList, flat, whole,
    parse_joint joint spells.reads spells'.reads spells'.unbarred]

theorem compileTree_radical {between : List Char} (free : between = [] ∨ between = [' '])
    (spells : Spells options leaf right second) {tree : Tree}
    (read : parse (String.ofList ("sqrt".toList ++ between ++
      Source.expand options.tabWidth right)) = tree) :
    compileTree (String.ofList ("sqrt".toList ++ between ++ right)) options = tree.layout := by
  have front : Source.expand options.tabWidth ("sqrt".toList ++ between) =
      "sqrt".toList ++ between := by
    rcases free with rfl | rfl <;> exact Source.expand_eq_self _ (by decide) (by decide)
  have line : '\n' ∉ "sqrt".toList ++ between ++ right := by
    rcases free with rfl | rfl <;> simpa using spells.single
  have flat : Source.flatten options.tabWidth ("sqrt".toList ++ between ++ right) = _ :=
    Source.flatten_eq_expand _ line (by rw [Source.expand_append, front]; rfl) (by decide)
      (by decide)
  rw [compileTree, Tree.ofSource, preprocess, String.toList_ofList, flat, Source.expand_append,
    front, read]

theorem compile_joint {left' right' : List Char} {first' second' : Tree} (joint : Joint)
    (count : Nat) (spells : Spells options leaf left first)
    (spells' : Spells options leaf' right second) (respells : Spells options leaf left' first')
    (respells' : Spells options leaf' right' second')
    (same : stage count (.cluster [first, .operator joint.glyph, second]) =
      stage count (.cluster [first', .operator joint.glyph, second'])) :
    compile (String.ofList (left ++ joint.sign :: right)) options =
      compile (String.ofList (left' ++ joint.sign :: right')) options := by
  rw [compile, compile, compileTree_joint joint spells spells',
    compileTree_joint joint respells respells', layout_eq_of_stage count same]

theorem compile_radical {pair : Pair} (plain : pair = .round ∨ pair = .curly) (term : leaf.IsTerm)
    (bare : Spells options leaf right leaf)
    (wrapped : Spells options leaf (pair.around right) (pair.wrap leaf)) :
    compile (String.ofList ("sqrt".toList ++ [' '] ++ right)) options =
      compile (String.ofList ("sqrt".toList ++ [] ++ pair.around right)) options := by
  have ends : ∀ c ∈ (Source.expand options.tabWidth (pair.around right)).head?,
      Symbol.isLetter c = false := by
    rw [pair.expand_around]
    intro c here
    rcases plain with rfl | rfl <;> cases here <;> decide
  rw [compile, compile, compileTree_radical (.inr rfl) bare (parse_radical_blank bare.reads),
    compileTree_radical (.inl rfl) wrapped (parse_radical wrapped.reads ends)]
  refine congrArg (Tree.write options) (layout_eq_of_stage 5 ?_)
  rw [stage_radical_row bare.shows term, stage_radical_cluster wrapped.shows term]

end

/-- Brackets around simple operands change nothing. -/
theorem compile_around {left right : List Char} (first : Operand left) (second : Operand right)
    {pair : Pair} (plain : pair = .round ∨ pair = .curly) (options : Options) :
    compile (String.ofList (left ++ '/' :: right)) options =
        compile (String.ofList (pair.around left ++ '/' :: pair.around right)) options ∧
      compile (String.ofList (left ++ '_' :: right)) options =
        compile (String.ofList (left ++ '_' :: pair.around right)) options ∧
      compile (String.ofList (left ++ '^' :: right)) options =
        compile (String.ofList (left ++ '^' :: pair.around right)) options ∧
      compile (String.ofList ("sqrt ".toList ++ right)) options =
        compile (String.ofList ("sqrt".toList ++ pair.around right)) options := by
  obtain ⟨leaf, term, bare, wrapped⟩ := first.spells options plain
  obtain ⟨leaf', term', bare', wrapped'⟩ := second.spells options plain
  refine ⟨compile_joint .fraction 6 bare bare' wrapped wrapped' ?_,
    compile_joint .subscript 2 bare bare' bare wrapped' ?_,
    compile_joint .superscript 3 bare bare' bare wrapped' ?_,
    compile_radical plain term' bare' wrapped'⟩
  · exact (stage_fraction bare.shows term bare'.shows term').trans
      (stage_fraction wrapped.shows term wrapped'.shows term').symm
  · exact (stage_subscript term bare'.shows term').trans
      (stage_subscript term wrapped'.shows term').symm
  · exact (stage_superscript term bare'.shows term').trans
      (stage_superscript term wrapped'.shows term').symm

theorem compile_around_curly : Operand "1 000.5".toList ∧ Operand "\"a\t/ b\"".toList ∧
    compile "1 000.5/\"a\t/ b\"" ⟨.block, true, "  ", 4⟩ =
        compile "\x7b1 000.5\x7d/\x7b\"a\t/ b\"\x7d" ⟨.block, true, "  ", 4⟩ ∧
      compile "1 000.5_\"a\t/ b\"" ⟨.block, true, "  ", 4⟩ =
        compile "1 000.5_\x7b\"a\t/ b\"\x7d" ⟨.block, true, "  ", 4⟩ ∧
      compile "1 000.5^\"a\t/ b\"" ⟨.block, true, "  ", 4⟩ =
        compile "1 000.5^\x7b\"a\t/ b\"\x7d" ⟨.block, true, "  ", 4⟩ ∧
      compile "sqrt \"a\t/ b\"" ⟨.block, true, "  ", 4⟩ =
        compile "sqrt\x7b\"a\t/ b\"\x7d" ⟨.block, true, "  ", 4⟩ := by
  have number : Operand "1 000.5".toList :=
    .number (.separated rfl rfl (.digit rfl (.digit rfl (.separated rfl rfl (.last rfl)))))
  have free : '\x22' ∉ "a\t/ b".toList ∧ '\n' ∉ "a\t/ b".toList := by decide
  have text : Operand "\"a\t/ b\"".toList := .text free.1 free.2
  have curly : Pair.curly = .round ∨ Pair.curly = .curly := .inr rfl
  exact ⟨number, text, compile_around number text curly ⟨.block, true, "  ", 4⟩⟩

end PlainMath
