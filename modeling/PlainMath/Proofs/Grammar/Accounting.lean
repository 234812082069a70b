import PlainMath.Proofs.Grammar.Parsed
import PlainMath.Proofs.Grammar.Progress

/-! Reading accounts for its input. What was read falls into pieces, one behind the other,
and the leaves and delimiters of the tree are what these pieces stand for, in their order:
nothing is lost, nothing is read twice and nothing changes its place. -/
namespace PlainMath

/-- What a piece of the input stands for in a tree: a leaf, or the glyph of a delimiter. -/
inductive Token where
  | leaf (tree : Tree)
  | delimiter (glyph : String)

namespace Tree

def opening : Tree → List Token
  | .bracketed left _ _ => [.delimiter left]
  | tree => if tree.leafText?.isSome then [.leaf tree] else []

/-- What a node shows behind its parts. A bracket may have no right delimiter. -/
def ending : Tree → List Token
  | .bracketed _ right _ => if right = "" then [] else [.delimiter right]
  | _ => []

def tokens (tree : Tree) : List Token :=
  tree.opening ++ (tree.children.attach.flatMap fun child =>
    have := weight_lt_of_mem_children child.2
    child.1.tokens) ++ tree.ending
termination_by tree.weight

theorem tokens_eq (tree : Tree) :
    tree.tokens = tree.opening ++ tree.children.flatMap tokens ++ tree.ending := by
  rw [tokens]
  simp

theorem tokens_leaf {tree : Tree} {text : String} (spelled : tree.leafText? = some text) :
    tree.tokens = [.leaf tree] := by
  rw [tokens_eq]
  cases tree with
  | identifier | operator | text | number => rfl
  | _ => cases spelled

theorem tokens_cluster (elements : List Tree) :
    (cluster elements).tokens = elements.flatMap tokens := by
  rw [tokens_eq]
  exact List.append_nil _

theorem tokens_row (elements : List Tree) : (row elements).tokens = elements.flatMap tokens := by
  rw [tokens_eq]
  exact List.append_nil _

theorem tokens_grid (rows : List (List Tree)) :
    (grid rows).tokens = rows.flatMap (·.flatMap tokens) := by
  rw [tokens_eq, children, List.flatten_eq_flatMap, List.flatMap_assoc]
  exact List.append_nil _

theorem tokens_bracketed (left right : String) (contents : Option Tree) :
    (bracketed left right contents).tokens = .delimiter left :: (contents.toList.flatMap tokens ++
      if right = "" then [] else [.delimiter right]) := tokens_eq _

theorem tokens_ofRows (rows : List (List Tree)) :
    (ofRows rows).tokens = rows.flatMap (·.flatMap tokens) := by
  unfold ofRows
  split <;> simp [tokens_grid]

theorem tokens_of_isEmptyGrid {tree : Tree} (empty : tree.isEmptyGrid = true) :
    tree.tokens = [] := by
  unfold isEmptyGrid at empty
  split at empty
  · simp [tokens_grid]
  · cases empty

end Tree

inductive Piece where
  | blank
  | semicolon
  | opener (bracket : Bracket)
  | closer (text glyph : String)
  /-- the dots of a range -/
  | dots
  | lexeme (text : List Char) (leaf : Tree)

namespace Piece

def spelling : Piece → List Char
  | .blank => [' ']
  | .semicolon => [';']
  | .opener bracket => bracket.opener.toList
  | .closer text _ => text.toList
  | .dots => ['.', '.']
  | .lexeme text _ => text

def token? : Piece → Option Token
  | .blank => none
  | .semicolon => none
  | .opener bracket => some (.delimiter bracket.glyph)
  | .closer _ glyph => some (.delimiter glyph)
  | .dots => some (.leaf (.operator Glyph.range))
  | .lexeme _ leaf => some (.leaf leaf)

/-- The piece can stand in front of `behind`: delimiters are those of the tables, and a lexeme
is what one of the readers takes there. -/
def Fits (behind : List Char) : Piece → Prop
  | .opener bracket => bracket ∈ Bracket.all
  | .closer text glyph => (text, glyph) ∈ Bracket.closers
  | .lexeme text leaf => leaf.isOperator Glyph.range = false ∧
      ∃ reader ∈ Lexeme.readers, reader (text ++ behind) = some (leaf, text.length)
  | _ => True

end Piece

/-- The input up to `rest` is made of these pieces. Each is looked at with all that is behind
it, since how far a word or a sign goes depends on that. -/
inductive Segmented : List Char → List Piece → List Char → Prop
  | done {rest : List Char} : Segmented rest [] rest
  | piece {piece : Piece} {behind rest : List Char} {pieces : List Piece} : piece.Fits behind →
      Segmented behind pieces rest → Segmented (piece.spelling ++ behind) (piece :: pieces) rest

namespace Segmented
variable {input middle rest : List Char} {pieces more : List Piece}

theorem append (first : Segmented input pieces middle) (second : Segmented middle more rest) :
    Segmented input (pieces ++ more) rest := by
  induction first with
  | done => exact second
  | piece fits _ ih => exact .piece fits (ih second)

theorem spells (segmented : Segmented input pieces rest) :
    pieces.flatMap Piece.spelling ++ rest = input := by
  induction segmented with
  | done => rfl
  | piece _ _ ih => rw [List.flatMap_cons, List.append_assoc, ih]

end Segmented

def Accounted (input : List Char) (tokens : List Token) (rest : List Char) : Prop :=
  ∃ pieces, Segmented input pieces rest ∧ pieces.filterMap Piece.token? = tokens

namespace Accounted
variable {input middle rest : List Char} {tokens more : List Token}

theorem refl (input : List Char) : Accounted input [] input := ⟨[], .done, rfl⟩

theorem trans (first : Accounted input tokens middle) (second : Accounted middle more rest) :
    Accounted input (tokens ++ more) rest := by
  obtain ⟨pieces, segmented, rfl⟩ := first
  obtain ⟨behind, segmented', rfl⟩ := second
  exact ⟨pieces ++ behind, segmented.append segmented', List.filterMap_append⟩

theorem one (piece : Piece) {behind : List Char} (fits : piece.Fits behind)
    (spelled : piece.spelling ++ behind = input) : Accounted input piece.token?.toList behind := by
  subst spelled
  refine ⟨[piece], .piece fits .done, ?_⟩
  rw [List.filterMap_cons]
  cases piece.token? <;> rfl

theorem blanks (input : List Char) : Accounted input [] (input.dropWhile (· == ' ')) := by
  induction input with
  | nil => exact .refl []
  | cons c input ih =>
    rw [List.dropWhile_cons]
    split
    · rename_i blank
      rw [eq_of_beq blank]
      exact (one .blank trivial rfl).trans ih
    · exact .refl _

end Accounted

theorem Lexeme.readers_bounded : ∀ reader ∈ readers, Bounded reader := by
  simp only [readers, List.forall_mem_cons, List.not_mem_nil, false_implies, implies_true, and_true]
  exact ⟨number?_bounded, text?_bounded, identifier?_bounded, operator?_bounded, unknown?_bounded⟩

theorem Lexeme.operator?_range {input : List Char} {length : Nat}
    (found : operator? input = some (.operator Glyph.range, length)) :
    length = 2 ∧ ['.', '.'] <+: input := by
  have words : ∀ entry ∈ Symbol.operators.words, entry.2 ≠ Glyph.range := by decide +kernel
  have signs : ∀ sign ∈ Symbol.operators.signs, sign.2 = Glyph.range → sign.1 = ['.', '.'] := by
    decide +kernel
  dsimp only [operator?] at found
  split at found
  · obtain ⟨⟨glyph, size⟩, longest, same⟩ := Option.map_eq_some_iff.mp found
    cases same
    obtain ⟨sign, member, glyph, size, leads⟩ := Symbol.Table.longestSign?_mem longest
    rw [signs sign member glyph] at size leads
    exact ⟨size.symm, leads⟩
  · obtain ⟨glyph, word, same⟩ := Option.map_eq_some_iff.mp found
    cases same
    exact absurd rfl (words _ (Symbol.Table.word?_mem word))

namespace Grammar
open Cursor

theorem leaf?_accounted {reader : List Char → Option (Tree × Nat)} (listed : reader ∈ Lexeme.readers)
    {cursor after : Cursor} {tree : Tree} (found : leaf? reader cursor = some (tree, after))
    (noDots : tree.isOperator Glyph.range = false) :
    Accounted cursor.rest tree.tokens after.rest := by
  obtain ⟨length, read, rfl⟩ := leaf?_eq_some found
  have bound := Lexeme.readers_bounded reader listed read
  have size : (cursor.rest.take length).length = length := by
    rw [List.length_take]
    omega
  have whole := List.take_append_drop length cursor.rest
  obtain ⟨text, spelled, _⟩ := Lexeme.leafText?_of_reader listed read
  rw [Tree.tokens_leaf spelled, rest_advance]
  refine Accounted.one (.lexeme (cursor.rest.take length) tree) ?_ whole
  exact ⟨noDots, reader, listed, by rw [whole, size, read]⟩

theorem range?_accounted {cursor after : Cursor} (found : range? cursor = some after) :
    Accounted cursor.rest (Tree.operator Glyph.range).tokens after.rest := by
  obtain ⟨length, read, rfl⟩ := leaf?_eq_some (range?_eq_some found)
  obtain ⟨rfl, behind, whole⟩ := Lexeme.operator?_range read
  have leaf : (Tree.operator Glyph.range).leafText? = some Glyph.range := rfl
  rw [Tree.tokens_leaf leaf, rest_advance, ← whole]
  exact Accounted.one .dots trivial rfl

theorem open?_accounted {cursor after : Cursor} {bracket : Bracket}
    (opened : cursor.open? = some (bracket, after)) :
    Accounted cursor.rest [.delimiter bracket.glyph] after.rest := by
  have listed := open?_mem opened
  obtain ⟨candidate, _, found⟩ := List.exists_of_findSome?_eq_some opened
  split at found
  · obtain ⟨eaten, ate, same⟩ := Option.map_eq_some_iff.mp found
    cases same
    exact Accounted.one (.opener bracket) listed (eat?_eq_some ate).2.symm
  · cases found

theorem closing_accounted (cursor : Cursor) :
    Accounted cursor.rest (if (closing cursor).1 = "" then [] else [.delimiter (closing cursor).1])
      (closing cursor).2.rest := by
  have drawn : ∀ closer ∈ Bracket.closers, closer.2 ≠ "" := by decide
  unfold closing
  cases closed : cursor.close? with
  | none => exact .refl _
  | some found =>
    obtain ⟨closer, listed, eaten⟩ := List.exists_of_findSome?_eq_some closed
    obtain ⟨after, ate, rfl⟩ := Option.map_eq_some_iff.mp eaten
    rw [Option.getD_some, if_neg (drawn closer listed)]
    exact Accounted.one (.closer closer.1 closer.2) listed (eat?_eq_some ate).2.symm

end Grammar

/-- Each step accounts for what it goes over: a value by its tokens, and all else by none. -/
structure Repetition.Accounts {α : Type} (repetition : Repetition α) (tokens : α → List Token) :
    Prop where
  take : ∀ {cursor value after}, repetition.step cursor = .take value after →
    Accounted cursor.rest (tokens value) after.rest
  skip : ∀ {cursor after}, repetition.step cursor = .skip after →
    Accounted cursor.rest [] after.rest
  stop : ∀ {cursor last}, repetition.step cursor = .stop last → Accounted cursor.rest [] last.rest

theorem Repetition.Accounts.collect {α : Type} {repetition : Repetition α} {tokens : α → List Token}
    (accounts : repetition.Accounts tokens) (cursor : Cursor) :
    Accounted cursor.rest ((repetition.collect cursor).1.flatMap tokens)
      (repetition.collect cursor).2.rest := by
  refine repetition.collect_induct
    (P := fun cursor found => Accounted cursor.rest (found.1.flatMap tokens) found.2.rest)
    ?_ ?_ ?_ cursor
  · intro cursor after value more step ih
    exact (accounts.take step).trans ih
  · intro cursor after more step ih
    exact (accounts.skip step).trans ih
  · intro cursor last step
    exact accounts.stop step

namespace Grammar
open Cursor

def Reader.Accounts (brackets : Reader) : Prop :=
  ∀ {cursor tree after}, brackets.run cursor = some (tree, after) →
    Accounted cursor.rest tree.tokens after.rest

variable {brackets : Reader} (accounts : brackets.Accounts)
include accounts

theorem atoms_accounts : (atoms brackets).Accounts Tree.tokens where
  take step := by
    obtain ⟨next, read, noDots, rfl⟩ := atomStep_take step
    rw [rest_expecting]
    rcases atom?_eq_some read with bracket | ⟨reader, listed, leaf⟩
    · exact accounts bracket
    · exact leaf?_accounted listed leaf noDots
  skip step := absurd step atomStep_not_skip
  stop step := by
    rw [(atomStep_stop step).1]
    exact .refl _

theorem cluster?_accounted {cursor after : Cursor} {tree : Tree}
    (found : cluster? brackets cursor = some (tree, after)) :
    Accounted cursor.rest tree.tokens after.rest := by
  obtain ⟨whole, rfl⟩ := cluster?_eq_some found
  have atoms := Tree.flatMap_ofCluster? Tree.tokens_cluster ((atoms brackets).collect cursor).1
  rw [whole, Option.toList_some, List.flatMap_singleton] at atoms
  rw [atoms]
  exact (atoms_accounts accounts).collect cursor

theorem rowElements_accounts : (rowElements brackets).Accounts Tree.tokens where
  take step := by
    rcases rowStep_take step with ⟨next, dots, rfl, rfl⟩ | cluster
    · rw [rest_expecting]
      exact range?_accounted dots
    · exact cluster?_accounted accounts cluster
  skip step := by
    rename_i cursor after
    obtain ⟨rfl, blank, _⟩ := rowStep_skip step
    cases here : cursor.rest with
    | nil => simp [peek, peekAt, here] at blank
    | cons c rest =>
      simp only [peek, peekAt, here, List.getElem?_cons_zero, Option.some.injEq] at blank
      rw [rest_advance, here, blank]
      exact Accounted.one .blank trivial rfl
  stop step := by
    rw [(rowStep_stop step).1]
    exact .refl _

theorem row_accounted (cursor : Cursor) :
    Accounted cursor.rest ((row brackets cursor).1.toList.flatMap Tree.tokens)
      (row brackets cursor).2.rest := by
  rw [row, Tree.flatMap_ofRow? Tree.tokens_row]
  exact (rowElements_accounts accounts).collect cursor

theorem rowCells_accounts : (rowCells brackets).Accounts Tree.tokens where
  take step := by
    rename_i cursor tree after
    obtain ⟨read, rfl⟩ := cellStep_take step
    have row := row_accounted accounts cursor
    rwa [read, Option.toList_some, List.flatMap_singleton] at row
  skip step := by
    rename_i cursor after
    obtain ⟨next, eaten, rfl⟩ := cellStep_skip step
    have whole := (eat?_eq_some eaten).2
    have first : Accounted cursor.rest [] (' ' :: next.rest) :=
      Accounted.one .blank trivial whole.symm
    have second : Accounted (' ' :: next.rest) [] next.rest :=
      Accounted.one .blank trivial rfl
    exact (first.trans second).trans (.blanks next.rest)
  stop step := by
    rename_i cursor last
    rcases cellStep_stop step with ⟨_, rfl⟩ | ⟨_, read, rfl⟩
    · exact .refl _
    · have row := row_accounted accounts cursor
      rwa [read] at row

theorem gridRow_accounted (cursor : Cursor) :
    Accounted cursor.rest ((gridRow brackets cursor).1.toList.flatMap (·.flatMap Tree.tokens))
      (gridRow brackets cursor).2.rest := by
  have cells := (rowCells_accounts accounts).collect cursor
  simp only [gridRow]
  split
  · rename_i empty
    rwa [List.isEmpty_iff.mp empty] at cells
  · rwa [Option.toList_some, List.flatMap_singleton]

theorem gridRows_accounts : (gridRows brackets).Accounts (·.flatMap Tree.tokens) where
  take step := by
    rename_i cursor cells after
    obtain ⟨read, rfl⟩ := gridStep_take step
    have cells := gridRow_accounted accounts cursor
    rwa [read, Option.toList_some, List.flatMap_singleton] at cells
  skip step := by
    obtain ⟨next, eaten, rfl⟩ := gridStep_skip step
    exact Accounted.one .semicolon trivial (eat?_eq_some eaten).2.symm
  stop step := by
    rename_i cursor last
    rcases gridStep_stop step with ⟨_, rfl⟩ | ⟨_, read, rfl⟩
    · exact .refl _
    · have cells := gridRow_accounted accounts cursor
      rwa [read] at cells

theorem grid_accounted (cursor : Cursor) :
    Accounted cursor.rest (grid brackets cursor).1.tokens (grid brackets cursor).2.rest := by
  simp only [grid, Tree.tokens_ofRows]
  exact (gridRows_accounts accounts).collect cursor

theorem bracketed?_accounted {cursor after : Cursor} {tree : Tree}
    (found : bracketed? brackets cursor = some (tree, after)) :
    Accounted cursor.rest tree.tokens after.rest := by
  obtain ⟨bracket, inside, opened, rfl, rfl⟩ := bracketed?_eq_some found
  have inner := grid_accounted accounts ((inside.awaiting bracket.closer).expecting true)
  generalize grid brackets ((inside.awaiting bracket.closer).expecting true) = found at inner ⊢
  have contents : (if found.1.isEmptyGrid then none else some found.1).toList.flatMap Tree.tokens =
      found.1.tokens := by
    split
    · rename_i empty
      rw [Tree.tokens_of_isEmptyGrid empty]
      rfl
    · rw [Option.toList_some, List.flatMap_singleton]
  rw [Tree.tokens_bracketed, contents]
  exact (open?_accounted opened).trans (inner.trans (closing_accounted found.2))

omit accounts in
theorem brackets_accounts (depth : Nat) : (Grammar.brackets depth).Accounts := by
  induction depth with
  | zero =>
    intro cursor tree after found
    cases found
  | succ depth ih =>
    intro cursor tree after found
    exact bracketed?_accounted ih found

end Grammar

/-- Up to where reading ends the source is made of pieces, and these stand for the leaves and
delimiters of the tree in their order. -/
theorem grid_accounts_for_source (source : String) :
    ∃ pieces : List Piece,
      Segmented source.toList pieces (Cursor.start source.toList).grid.2.rest ∧
      pieces.flatMap Piece.spelling =
        source.toList.take ((Cursor.start source.toList).grid.2.position source.toList) ∧
      pieces.filterMap Piece.token? = (parse source).tokens := by
  obtain ⟨pieces, segmented, tokens⟩ := Grammar.grid_accounted
    (Grammar.brackets_accounts source.toList.length) (Cursor.start source.toList)
  refine ⟨pieces, segmented, ?_, tokens⟩
  have whole : pieces.flatMap Piece.spelling ++ (Cursor.start source.toList).grid.2.rest =
      source.toList := segmented.spells
  have size : (Cursor.start source.toList).grid.2.position source.toList =
      (pieces.flatMap Piece.spelling).length := by
    rw [Cursor.position]
    have total := congrArg List.length whole
    rw [List.length_append] at total
    omega
  rw [size, ← List.prefix_iff_eq_take]
  exact ⟨_, whole⟩

end PlainMath
