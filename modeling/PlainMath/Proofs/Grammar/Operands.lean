import PlainMath.Proofs.Grammar.Coverage
import PlainMath.Proofs.Grammar.Nesting

/-! Simple operands: numbers, letters, words, quoted texts and quoted names. Where a term is
expected, each of them is read as one leaf, the same one with and without brackets around it. -/
namespace PlainMath
open PlainMath.Symbol

inductive Numeral : List Char → Prop
  | last {c : Char} : c.isDigit = true → Numeral [c]
  | digit {c : Char} {rest : List Char} : c.isDigit = true → Numeral rest → Numeral (c :: rest)
  | separated {c separator : Char} {rest : List Char} : c.isDigit = true →
      Lexeme.isSeparator separator = true → Numeral rest → Numeral (c :: separator :: rest)

inductive Operand : List Char → Prop
  | number {numeral : List Char} : Numeral numeral → Operand numeral
  | letter {c : Char} : isLetter c = true → Operand [c]
  | word {word : List Char} : 2 ≤ word.length → (∀ c ∈ word, isLetter c = true) →
      operators.word? word = none → Operand word
  | text {content : List Char} : '\x22' ∉ content → '\n' ∉ content →
      Operand ('\x22' :: (content ++ ['\x22']))
  | name {content : List Char} : '\x27' ∉ content → '\n' ∉ content →
      Operand ('\x27' :: (content ++ ['\x27']))

inductive Tree.IsTerm : Tree → Prop
  | identifier (symbol : String) : IsTerm (.identifier symbol)
  | text (content : String) : IsTerm (.text content)
  | number (numeral : String) : IsTerm (.number numeral)

namespace Lexeme

def term? (input : List Char) : Option (Tree × Nat) :=
  (number? input).or <| (text? input).or <| (identifier? input).or <|
    (operator? input).or (unknown? input)

/-- Goes on with neither a number nor a word. -/
def Ends (behind : List Char) : Prop :=
  ∀ c ∈ behind.head?, c.isDigit = false ∧ isSeparator c = false ∧ isLetter c = false

theorem numeral_eq_cons {numeral : List Char} (spelled : Numeral numeral) :
    ∃ c rest, numeral = c :: rest ∧ c.isDigit = true := by
  cases spelled with
  | last digit => exact ⟨_, _, rfl, digit⟩
  | digit digit _ => exact ⟨_, _, rfl, digit⟩
  | separated digit _ _ => exact ⟨_, _, rfl, digit⟩

theorem numeralTail_numeral {numeral : List Char} (spelled : Numeral numeral)
    (behind : List Char) : numeralTail (numeral ++ behind) = numeral ++ numeralTail behind := by
  induction spelled with
  | last digit => simp [numeralTail, digit]
  | digit digit _ ih => simp [numeralTail, digit, ih]
  | separated digit separator spelled ih =>
    obtain ⟨d, rest, rfl, next⟩ := numeral_eq_cons spelled
    rw [List.cons_append, List.cons_append, numeralTail, if_pos (by simp [digit]), numeralTail,
      if_pos (by simp [separator, next]), ih]
    rfl

theorem number?_numeral {numeral behind : List Char} (spelled : Numeral numeral)
    (ends : numeralTail behind = []) :
    number? (numeral ++ behind) = some (.number (String.ofList numeral), numeral.length) := by
  have whole := numeralTail_numeral spelled behind
  obtain ⟨c, rest, rfl, digit⟩ := numeral_eq_cons spelled
  rw [List.cons_append, numeralTail, if_pos (by simp [digit]), ends, List.append_nil] at whole
  simp only [List.cons_append, number?, digit, if_true, whole]

theorem numeralTail_of_ends {behind : List Char} (ends : Ends behind) :
    numeralTail behind = [] := by
  cases behind with
  | nil => rfl
  | cons c behind => simp [numeralTail, ends c rfl]

theorem letters_append {word behind : List Char} (spelled : ∀ c ∈ word, isLetter c = true)
    (ends : ∀ c ∈ behind.head?, isLetter c = false) : letters (word ++ behind) = word := by
  rw [letters, List.takeWhile_append_of_pos spelled]
  cases behind with
  | nil => simp
  | cons c behind => simp [ends c rfl]

theorem quoted?_content {quote : Char} {content : List Char} (free : quote ∉ content)
    (behind : List Char) : quoted? quote (quote :: (content ++ quote :: behind)) =
      some (content, content.length + 2) := by
  have inside : (content ++ quote :: behind).takeWhile (· ≠ quote) = content := by
    rw [List.takeWhile_append_of_pos fun c member => by
      simpa using fun same : c = quote => free (same ▸ member)]
    simp
  have room : content.length + 2 ≤ (content ++ quote :: behind).length + 1 := by
    simp only [List.length_append, List.length_cons]
    omega
  rw [quoted?, if_pos rfl]
  simp only [inside, Nat.min_eq_left room]

theorem toNat_of_letter {c : Char} (letter : isLetter c = true) :
    65 ≤ c.toNat ∧ c.toNat ≤ 90 ∨ 97 ≤ c.toNat ∧ c.toNat ≤ 122 := by
  rcases Bool.or_eq_true_iff.mp letter with upper | lower
  · have bounds : 'A'.val ≤ c.val ∧ c.val ≤ 'Z'.val := of_decide_eq_true upper
    exact .inl ⟨UInt32.le_iff_toNat_le.mp bounds.1, UInt32.le_iff_toNat_le.mp bounds.2⟩
  · obtain ⟨low, high⟩ := Bool.and_eq_true_iff.mp lower
    exact .inr ⟨UInt32.le_iff_toNat_le.mp (of_decide_eq_true low),
      UInt32.le_iff_toNat_le.mp (of_decide_eq_true high)⟩

theorem toNat_of_digit {c : Char} (digit : c.isDigit = true) : 48 ≤ c.toNat ∧ c.toNat ≤ 57 := by
  obtain ⟨low, high⟩ := Bool.and_eq_true_iff.mp digit
  exact ⟨UInt32.le_iff_toNat_le.mp (of_decide_eq_true low),
    UInt32.le_iff_toNat_le.mp (of_decide_eq_true high)⟩

theorem not_digit_of_letter {c : Char} (letter : isLetter c = true) : c.isDigit = false := by
  rw [Bool.eq_false_iff]
  intro digit
  have := toNat_of_letter letter
  have := toNat_of_digit digit
  omega

/-- The identifier that a word stands for: its glyph, or else itself. -/
def wordLeaf (word : List Char) : Tree :=
  .identifier ((identifiers.word? word).getD (String.ofList word))

theorem term?_word {word behind : List Char} (nonempty : word ≠ [])
    (spelled : ∀ c ∈ word, isLetter c = true)
    (plain : word.length = 1 ∨ operators.word? word = none)
    (ends : ∀ c ∈ behind.head?, isLetter c = false) :
    term? (word ++ behind) = some (wordLeaf word, word.length) := by
  obtain ⟨c, rest, rfl⟩ := List.exists_cons_of_ne_nil nonempty
  have letter := spelled c List.mem_cons_self
  have apart (quote : Char) (other : isLetter quote = false) : c ≠ quote := by
    rintro rfl
    simp [letter] at other
  have first : term? (c :: rest ++ behind) =
      (identifier? (c :: rest ++ behind)).or
        ((operator? (c :: rest ++ behind)).or (unknown? (c :: rest ++ behind))) := by
    simp [term?, number?, text?, quoted?, not_digit_of_letter letter, apart '\x22' (by decide)]
  have unquoted : quotedIdentifier? (c :: rest ++ behind) = none := by
    simp [quotedIdentifier?, quoted?, apart '\x27' (by decide)]
  have own := letters_append spelled ends
  have last : unknown? (c :: rest ++ behind) =
      some (.identifier (String.ofList (c :: rest)), (c :: rest).length) := by
    unfold unknown?
    simp only [own, if_neg nonempty]
  rw [first, last, identifier?, unquoted, operator?, own, wordLeaf]
  cases known : identifiers.word? (c :: rest) with
  | some glyph => simp [known]
  | none =>
    by_cases single : (c :: rest).length = 1
    · simp [known, single]
    · simp only [if_neg nonempty, known, if_neg single, plain.resolve_left single, Option.map_none,
        Option.none_or, Option.getD_none]

end Lexeme

namespace Operand
open Lexeme
variable {text : List Char}

theorem term (operand : Operand text) : ∃ leaf : Tree, leaf.IsTerm ∧
    ∀ behind, Ends behind → term? (text ++ behind) = some (leaf, text.length) := by
  cases operand with
  | number spelled =>
    refine ⟨_, .number (String.ofList text), fun behind ends => ?_⟩
    rw [term?, number?_numeral spelled (numeralTail_of_ends ends), Option.some_or]
  | @letter c letter =>
    exact ⟨_, .identifier _, fun behind ends => term?_word (List.cons_ne_nil c [])
      (by simpa using letter) (.inl rfl) fun c first => (ends c first).2.2⟩
  | word long letters unknown =>
    have nonempty : text ≠ [] := by
      rintro rfl
      cases long
    exact ⟨_, .identifier _, fun behind ends =>
      term?_word nonempty letters (.inr unknown) fun c first => (ends c first).2.2⟩
  | @text content free _ =>
    refine ⟨_, .text (Text.escape content), fun behind _ => ?_⟩
    simp [term?, number?, text?, quoted?_content free]
  | @name content free _ =>
    refine ⟨_, .identifier (Text.escape content), fun behind _ => ?_⟩
    have other : quoted? '\x22' ('\x27' :: (content ++ '\x27' :: behind)) = none := rfl
    simp [term?, number?, text?, other, identifier?, quotedIdentifier?, quoted?_content free]

def starts (c : Char) : Bool := c.isDigit || isLetter c || c == '\x22' || c == '\x27'

theorem head? (operand : Operand text) : ∃ c, text.head? = some c ∧ starts c = true := by
  cases operand with
  | number spelled =>
    obtain ⟨c, rest, rfl, digit⟩ := numeral_eq_cons spelled
    exact ⟨c, rfl, by simp [starts, digit]⟩
  | letter letter => exact ⟨_, rfl, by simp [starts, letter]⟩
  | word long letters _ =>
    cases text with
    | nil => cases long
    | cons c rest => exact ⟨c, rfl, by simp [starts, letters c List.mem_cons_self]⟩
  | text => exact ⟨_, rfl, rfl⟩
  | name => exact ⟨_, rfl, rfl⟩

end Operand

namespace Grammar
variable {depth : Nat} {cursor : Cursor} {text behind : List Char} {leaf : Tree}

theorem atomStep_term (expected : cursor.expectTerm = true) (unopened : cursor.open? = none)
    (awaited : cursor.atCloser = false) (here : cursor.rest = text ++ behind)
    (read : Lexeme.term? (text ++ behind) = some (leaf, text.length)) (more : text ≠ [])
    (other : leaf.isOperator Glyph.range = false) :
    atomStep (brackets depth) cursor = .take leaf ⟨behind, needsTerm leaf, cursor.closer⟩ := by
  have within : cursor.atEnd = false := by simp [Cursor.atEnd, here, more]
  have found : atom? (brackets depth) cursor = some (leaf, cursor.advance text.length) := by
    have whole : atom? (brackets depth) cursor =
        (Lexeme.term? cursor.rest).map fun found => (found.1, cursor.advance found.2) := by
      simp [atom?, word?, leaf?, Lexeme.term?, run_unopened unopened, expected, Option.map_or]
    rw [whole, here, read, Option.map_some]
  simp [atomStep, within, awaited, found, other, Cursor.expecting, Cursor.advance, here]

theorem atCloser_of_starts {c : Char} (first : cursor.rest.head? = some c)
    (starts : Operand.starts c = true)
    (closer : cursor.closer.toList.head?.any Operand.starts = false) : cursor.atCloser = false := by
  have passed (text : String) (other : text.toList.head?.any Operand.starts = false) :
      cursor.startsWith text = false := by
    refine Cursor.startsWith_of_head fun same => ?_
    rw [same, first, Option.any_some, starts] at other
    cases other
  unfold Cursor.atCloser
  split
  · simp [passed ")" (by decide), passed "]" (by decide)]
  · exact passed cursor.closer closer

theorem open?_of_starts {c : Char} (first : cursor.rest.head? = some c)
    (starts : Operand.starts c = true) : cursor.open? = none := by
  have openers : ∀ bracket ∈ Bracket.all,
      bracket.opener.toList.head?.any Operand.starts = false := by decide
  refine Cursor.open?_eq_none fun bracket listed same => ?_
  have other := openers bracket listed
  rw [same, first, Option.any_some, starts] at other
  cases other

theorem calm_of_starts {c : Char} (first : cursor.rest.head? = some c)
    (starts : Operand.starts c = true ∨ ∃ pair : Pair, pair.opener.head? = some c) :
    cursor.Calm := by
  intro d here
  rw [first] at here
  cases here
  refine ⟨?_, ?_, ?_⟩ <;> rintro rfl
  all_goals
    rcases starts with operand | ⟨pair, opener⟩
    · revert operand
      decide
    · revert opener
      cases pair <;> decide

end Grammar

namespace Pair

def around (pair : Pair) (text : List Char) : List Char := pair.opener ++ (text ++ pair.closer)

def wrap (pair : Pair) (tree : Tree) : Tree :=
  .bracketed pair.bracket.glyph pair.bracket.closerGlyph (some tree)

theorem ends_closer (pair : Pair) (behind : List Char) : Lexeme.Ends (pair.closer ++ behind) := by
  intro c first
  cases pair <;> cases first <;> decide

end Pair

namespace Grammar
open Lexeme

/-- Outside of brackets the text is read as the item where a term is expected. -/
structure ReadsAs (text : List Char) (item : Tree) : Prop where
  head : ∃ c, text.head? = some c ∧
    (Operand.starts c = true ∨ ∃ pair : Pair, pair.opener.head? = some c)
  step : ∀ (depth : Nat) (behind : List Char), Ends behind →
    atomStep (brackets (depth + 1)) ⟨text ++ behind, true, ""⟩ = .take item ⟨behind, false, ""⟩

end Grammar

namespace Operand
open Lexeme Grammar
variable {text : List Char} {leaf : Tree}

theorem atomStep (operand : Operand text) (term : leaf.IsTerm) (depth : Nat) {behind : List Char}
    (read : term? (text ++ behind) = some (leaf, text.length)) {closer : String}
    (other : closer.toList.head?.any starts = false) :
    atomStep (brackets depth) ⟨text ++ behind, true, closer⟩ =
      .take leaf ⟨behind, false, closer⟩ := by
  obtain ⟨c, first, start⟩ := operand.head?
  have more : text ≠ [] := by
    rintro rfl
    cases first
  have first : (text ++ behind).head? = some c := by rw [List.head?_append, first]; rfl
  have step : Grammar.atomStep (brackets depth) ⟨text ++ behind, true, closer⟩ = _ :=
    atomStep_term rfl (open?_of_starts first start) (atCloser_of_starts first start other) rfl
      read more (by cases term <;> rfl)
  rw [step]
  cases term <;> rfl

theorem grid_eq (operand : Operand text) (term : leaf.IsTerm)
    (read : ∀ behind, Ends behind → term? (text ++ behind) = some (leaf, text.length))
    (pair : Pair) (depth : Nat) (behind : List Char) :
    grid (brackets depth) ⟨text ++ (pair.closer ++ behind), true, pair.bracket.closer⟩ =
      (leaf, ⟨pair.closer ++ behind, false, pair.bracket.closer⟩) := by
  obtain ⟨c, first, start⟩ := operand.head?
  have halted : (⟨pair.closer ++ behind, false, pair.bracket.closer⟩ : Cursor).Halted :=
    .closer pair behind false
  have other : pair.bracket.closer.toList.head?.any starts = false := by cases pair <;> decide
  have atom : Grammar.atomStep (brackets depth)
      ⟨text ++ (pair.closer ++ behind), true, pair.bracket.closer⟩ = _ :=
    operand.atomStep term depth (read _ (pair.ends_closer behind)) other
  have found := (atoms (brackets depth)).collect_take atom
  rw [collect_atoms_halted halted] at found
  refine grid_of_atoms (calm_of_starts ?_ (.inl start)) halted found
  rw [List.head?_append, first]
  rfl

theorem readsAs (operand : Operand text) : ∃ leaf : Tree, leaf.IsTerm ∧
    ReadsAs text leaf ∧ ∀ pair : Pair, ReadsAs (pair.around text) (pair.wrap leaf) := by
  obtain ⟨leaf, term, read⟩ := operand.term
  obtain ⟨c, first, start⟩ := operand.head?
  refine ⟨leaf, term, ⟨⟨c, first, .inl start⟩, ?_⟩, fun pair => ⟨?_, ?_⟩⟩
  · exact fun depth behind ends => operand.atomStep term (depth + 1) (read behind ends) rfl
  · obtain ⟨d, opener⟩ : ∃ d, pair.opener.head? = some d := by cases pair <;> exact ⟨_, rfl⟩
    exact ⟨d, by rw [Pair.around, List.head?_append, opener]; rfl, .inr ⟨pair, opener⟩⟩
  · intro depth behind _
    have shown : leaf.isEmptyGrid = false := by cases term <;> rfl
    have outside : (⟨pair.around text ++ behind, true, ""⟩ : Cursor).atCloser = false := by
      simp [Cursor.atCloser, Cursor.startsWith]
    rw [atomStep_bracketed pair (by simp [Pair.around]) outside
      (operand.grid_eq term read pair depth behind), shown]
    rfl

end Operand

inductive Joint where
  | fraction
  | subscript
  | superscript

namespace Joint

def sign : Joint → Char
  | .fraction => '/'
  | .subscript => '_'
  | .superscript => '^'

def glyph : Joint → String
  | .fraction => Glyph.fractionBar
  | .subscript => Glyph.subscript
  | .superscript => Glyph.superscript

theorem operator?_sign (joint : Joint) {behind : List Char} (other : behind.head? ≠ some '|') :
    Lexeme.operator? (joint.sign :: behind) = some (.operator joint.glyph, 1) := by
  have listed : ([joint.sign], joint.glyph) ∈ operators.signs := by
    cases joint <;> decide +kernel
  have alone : ∀ entry ∈ operators.signs, entry.1.head? = some joint.sign →
      entry = ([joint.sign], joint.glyph) ∨ entry.1[1]? = some '|' := by
    cases joint <;> decide +kernel
  have filled : ∀ entry ∈ operators.signs, entry.1 ≠ [] := by decide +kernel
  have longest : operators.longestSign? (joint.sign :: behind) = some (joint.glyph, 1) := by
    refine Table.longestSign?_eq_some listed (by simp) ⟨behind, rfl⟩ ?_
    rintro entry member ⟨tail, leads⟩
    cases shape : entry.1 with
    | nil => exact absurd shape (filled entry member)
    | cons c letters =>
      rw [shape] at leads
      obtain ⟨rfl, rest⟩ := List.cons.inj leads
      rcases alone entry member (by rw [shape]; rfl) with same | second
      · exact same
      · refine absurd ?_ other
        cases letters with
        | nil => rw [shape] at second; cases second
        | cons d letters =>
          rw [shape] at second
          rw [← rest]
          exact second
  have letters : Lexeme.letters (joint.sign :: behind) = [] := by
    cases joint <;> simp [Lexeme.letters, isLetter, sign]
  rw [Lexeme.operator?, letters]
  simp [longest]

theorem atomStep (joint : Joint) (depth : Nat) {behind : List Char}
    (other : behind.head? ≠ some '|') :
    Grammar.atomStep (Grammar.brackets depth) ⟨joint.sign :: behind, false, ""⟩ =
      .take (.operator joint.glyph) ⟨behind, true, ""⟩ := by
  have openers : ∀ bracket ∈ Bracket.all, bracket.opener.toList.head? ≠ some joint.sign := by
    cases joint <;> decide
  have unopened : (⟨joint.sign :: behind, false, ""⟩ : Cursor).open? = none :=
    Cursor.open?_eq_none openers
  have read := joint.operator?_sign other
  have number : Lexeme.number? (joint.sign :: behind) = none := by cases joint <;> rfl
  have text : Lexeme.text? (joint.sign :: behind) = none := by cases joint <;> rfl
  have needed : Grammar.needsTerm (.operator joint.glyph) = true := by cases joint <;> decide
  have range : Tree.isOperator Glyph.range (.operator joint.glyph) = false := by
    cases joint <;> decide
  simp [Grammar.atomStep, Cursor.atEnd, Cursor.atCloser, Cursor.startsWith, Grammar.atom?,
    Grammar.run_unopened unopened, Grammar.leaf?, number, text, Grammar.word?, read, range, needed,
    Cursor.expecting, Cursor.advance]

end Joint
namespace Grammar
open Lexeme
variable {left right : List Char} {first second : Tree}

theorem collect_atoms_take {reader : Reader} {cursor after : Cursor} {tree : Tree}
    (step : atomStep reader cursor = .take tree after) : (atoms reader).collect cursor =
      (tree :: ((atoms reader).collect after).1, ((atoms reader).collect after).2) :=
  (atoms reader).collect_take step

theorem ReadsAs.calm (reads : ReadsAs left first) (behind : List Char) (term : Bool)
    (closer : String) : (⟨left ++ behind, term, closer⟩ : Cursor).Calm := by
  obtain ⟨c, head, starts⟩ := reads.head
  exact calm_of_starts (by rw [List.head?_append, head]; rfl) starts

theorem ReadsAs.last (reads : ReadsAs left first) (depth : Nat) :
    (atoms (brackets (depth + 1))).collect ⟨left, true, ""⟩ = ([first], ⟨[], false, ""⟩) := by
  have step := reads.step depth [] (by simp [Ends])
  rw [List.append_nil] at step
  rw [collect_atoms_take step, collect_atoms_halted (.ended false)]

theorem parse_joint (joint : Joint) (reads : ReadsAs left first) (reads' : ReadsAs right second)
    (other : right.head? ≠ some '|') :
    parse (String.ofList (left ++ joint.sign :: right)) =
      .cluster [first, .operator joint.glyph, second] := by
  have ends : Ends (joint.sign :: right) := by
    intro c here
    cases joint <;> cases here <;> decide
  obtain ⟨depth, size⟩ : ∃ depth, (left ++ joint.sign :: right).length = depth + 1 :=
    ⟨left.length + right.length, by simp; omega⟩
  have found : (atoms (brackets (depth + 1))).collect (Cursor.start (left ++ joint.sign :: right)) =
      ([first, .operator joint.glyph, second], ⟨[], false, ""⟩) := by
    have operand := reads.step depth _ ends
    have sign := joint.atomStep (depth + 1) other
    rw [Cursor.start, collect_atoms_take operand, collect_atoms_take sign, reads'.last depth]
  have whole := grid_of_atoms (reads.calm _ true "") (.ended false) found
  simp only [parse, Cursor.grid, Cursor.brackets, String.toList_ofList]
  rw [Cursor.start, size]
  exact congrArg Prod.fst whole

theorem term?_radical {behind : List Char} (ends : ∀ c ∈ behind.head?, isLetter c = false) :
    term? ("sqrt".toList ++ behind) = some (.operator Glyph.radical, 4) := by
  have known : operators.word? "sqrt".toList = some Glyph.radical := by decide +kernel
  have unknown : identifiers.word? "sqrt".toList = none := by decide +kernel
  have own : letters ("sqrt".toList ++ behind) = "sqrt".toList :=
    letters_append (by simp [isLetter]) ends
  have number : number? ("sqrt".toList ++ behind) = none := rfl
  have text : text? ("sqrt".toList ++ behind) = none := rfl
  have quoted : quotedIdentifier? ("sqrt".toList ++ behind) = none := rfl
  have nonempty : "sqrt".toList ≠ [] := by decide
  have long : "sqrt".toList.length ≠ 1 := by decide
  rw [term?, number, text, identifier?, quoted, operator?, own]
  simp only [if_neg nonempty, unknown, if_neg long, known, Option.map_some, Option.none_or,
    Option.some_or]
  rfl

theorem atomStep_radical (depth : Nat) {behind : List Char}
    (ends : ∀ c ∈ behind.head?, isLetter c = false) :
    atomStep (brackets depth) ⟨"sqrt".toList ++ behind, true, ""⟩ =
      .take (.operator Glyph.radical) ⟨behind, true, ""⟩ := by
  have head : ("sqrt".toList ++ behind).head? = some 's' := rfl
  exact atomStep_term rfl (open?_of_starts head (by decide))
    (atCloser_of_starts head (by decide) rfl) rfl (term?_radical ends) (by decide) (by decide)

theorem calm_radical (behind : List Char) :
    (⟨"sqrt".toList ++ behind, true, ""⟩ : Cursor).Calm :=
  calm_of_starts (rfl : _ = some 's') (.inl (by decide))

theorem parse_radical (reads : ReadsAs right second)
    (ends : ∀ c ∈ right.head?, isLetter c = false) :
    parse (String.ofList ("sqrt".toList ++ right)) =
      .cluster [.operator Glyph.radical, second] := by
  have found : (atoms (brackets (right.length + 3 + 1))).collect
      (Cursor.start ("sqrt".toList ++ right)) =
        ([.operator Glyph.radical, second], ⟨[], false, ""⟩) := by
    have radical := atomStep_radical (right.length + 3 + 1) ends
    rw [Cursor.start, collect_atoms_take radical, reads.last]
  have whole := grid_of_atoms (calm_radical right) (.ended false) found
  simp only [parse, Cursor.grid, Cursor.brackets, String.toList_ofList]
  exact congrArg Prod.fst whole

theorem atomStep_blank (depth : Nat) (behind : List Char) (term : Bool) :
    atomStep (brackets depth) ⟨' ' :: behind, term, ""⟩ = .stop ⟨' ' :: behind, term, ""⟩ := by
  have openers : ∀ bracket ∈ Bracket.all, bracket.opener.toList.head? ≠ some ' ' := by decide
  have unopened : (⟨' ' :: behind, term, ""⟩ : Cursor).open? = none :=
    Cursor.open?_eq_none openers
  have unread : atom? (brackets depth) ⟨' ' :: behind, term, ""⟩ = none :=
    atom?_eq_none_iff.mpr ⟨run_unopened unopened, Lexeme.readers_eq_none (.inl rfl) behind⟩
  simp [atomStep, unread]

theorem collect_radical (depth : Nat) (behind : List Char) :
    (atoms (brackets depth)).collect ⟨"sqrt".toList ++ ' ' :: behind, true, ""⟩ =
      ([.operator Glyph.radical], ⟨' ' :: behind, true, ""⟩) := by
  have ends : ∀ c ∈ (' ' :: behind).head?, isLetter c = false := by
    rintro c here
    cases here
    decide
  have blank : (atoms (brackets depth)).step ⟨' ' :: behind, true, ""⟩ = _ :=
    atomStep_blank depth behind true
  rw [collect_atoms_take (atomStep_radical depth ends), (atoms (brackets depth)).collect_stop blank]

theorem parse_radical_blank (reads : ReadsAs right second) :
    parse (String.ofList ("sqrt ".toList ++ right)) = .row [.operator Glyph.radical, second] := by
  have calm := reads.calm [] true ""
  rw [List.append_nil] at calm
  have blank : (rowElements (brackets (right.length + 4 + 1))).step ⟨' ' :: right, true, ""⟩ =
      .skip ⟨right, true, ""⟩ := by
    have next : right.head? ≠ some ' ' := fun here => (calm ' ' here).1 rfl
    simp [rowElements, rowStep, Cursor.atEnd, Cursor.peek, Cursor.peekAt, Cursor.advance,
      ← List.head?_eq_getElem?, next]
  have elements : (rowElements (brackets (right.length + 4 + 1))).collect
      ⟨"sqrt".toList ++ ' ' :: right, true, ""⟩ =
        ([.operator Glyph.radical, second], ⟨[], false, ""⟩) := by
    have radical := rowStep_of_atoms (calm_radical _)
      (collect_radical (right.length + 4 + 1) right) rfl
    have operand := rowStep_of_atoms calm (reads.last (right.length + 4)) rfl
    rw [(rowElements _).collect_take radical, (rowElements _).collect_skip blank,
      (rowElements _).collect_take operand, collect_row_halted (.ended false)]
  have row : row (brackets (right.length + 4 + 1)) ⟨"sqrt".toList ++ ' ' :: right, true, ""⟩ =
      (some (.row [.operator Glyph.radical, second]), ⟨[], false, ""⟩) := by
    rw [Grammar.row, elements]
    rfl
  have whole := grid_of_row (calm_radical _) (.ended false) row
  simp only [parse, Cursor.grid, Cursor.brackets, String.toList_ofList]
  exact congrArg Prod.fst whole

end Grammar
end PlainMath
