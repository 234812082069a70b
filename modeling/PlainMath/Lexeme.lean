import PlainMath.Symbol.Dictionary
import PlainMath.Text.Escape
import PlainMath.Tree.Basic

/-! The leaves of the notation. Each reader below looks at the start of the
input and gives the leaf that is spelled there together with the number of
characters that spell it. A leaf takes at least one character and never more
than there are. -/
namespace PlainMath.Lexeme
open PlainMath.Symbol

def isSeparator (c : Char) : Bool := c == '.' || c == ',' || c == ' '

/-- Digits, and separators that are directly followed by a digit. -/
def numeralTail : List Char → List Char
  | [] => []
  | c :: rest =>
    if c.isDigit || (isSeparator c && rest.head?.any Char.isDigit) then
      c :: numeralTail rest
    else
      []

def number? : List Char → Option (Tree × Nat)
  | [] => none
  | c :: rest =>
    if c.isDigit then
      let numeral := c :: numeralTail rest
      some (.number (String.ofList numeral), numeral.length)
    else
      none

/-- What stands between a quote and the next one, or the end when there is no
next one, with the length that includes the quotes. -/
def quoted? (quote : Char) : List Char → Option (List Char × Nat)
  | [] => none
  | c :: rest =>
    if c = quote then
      let content := rest.takeWhile (· ≠ quote)
      some (content, min (content.length + 2) (rest.length + 1))
    else
      none

def text? (input : List Char) : Option (Tree × Nat) :=
  (quoted? '\x22' input).map fun found => (.text (Text.escape found.1), found.2)

/-- An identifier in single quotes, for names that no dictionary holds. -/
def quotedIdentifier? (input : List Char) : Option (Tree × Nat) :=
  (quoted? '\x27' input).map fun found => (.identifier (Text.escape found.1), found.2)

def letters (input : List Char) : List Char := input.takeWhile isLetter

/-- A quoted name, a word of the dictionary, a single letter or a sign. -/
def identifier? (input : List Char) : Option (Tree × Nat) :=
  (quotedIdentifier? input).or <|
    let word := letters input
    if word = [] then
      (identifiers.longestSign? input).map fun found => (.identifier found.1, found.2)
    else match identifiers.word? word with
      | some glyph => some (.identifier glyph, word.length)
      | none => if word.length = 1 then some (.identifier (String.ofList word), 1) else none

def operator? (input : List Char) : Option (Tree × Nat) :=
  let word := letters input
  if word = [] then
    (operators.longestSign? input).map fun found => (.operator found.1, found.2)
  else
    (operators.word? word).map fun glyph => (.operator glyph, word.length)

/-- What no dictionary knows: a word is an identifier, any other character but
a blank or a semicolon is an operator. -/
def unknown? (input : List Char) : Option (Tree × Nat) :=
  let word := letters input
  if word = [] then
    match input with
    | [] => none
    | c :: _ => if c = ' ' ∨ c = ';' then none else some (.operator (Text.escape [c]), 1)
  else
    some (.identifier (String.ofList word), word.length)

def Bounded (reader : List Char → Option (Tree × Nat)) : Prop :=
  ∀ {input leaf length}, reader input = some (leaf, length) → 0 < length ∧ length ≤ input.length

theorem numeralTail_length_le (input : List Char) :
    (numeralTail input).length ≤ input.length := by
  fun_induction numeralTail input with
  | case1 => simp
  | case2 c rest _ ih => simp only [List.length_cons]; omega
  | case3 => simp

theorem letters_length_le (input : List Char) : (letters input).length ≤ input.length :=
  (List.takeWhile_prefix isLetter).length_le

theorem letters_bound {input : List Char} (spelled : letters input ≠ []) :
    0 < (letters input).length ∧ (letters input).length ≤ input.length :=
  ⟨List.length_pos_iff.mpr spelled, letters_length_le input⟩

theorem quoted?_bound {quote : Char} {input content : List Char} {length : Nat}
    (found : quoted? quote input = some (content, length)) :
    0 < length ∧ length ≤ input.length := by
  cases input with
  | nil => cases found
  | cons c rest =>
    simp only [quoted?] at found
    split at found
    · cases found
      simp only [List.length_cons]
      omega
    · cases found

theorem number?_bounded : Bounded number? := by
  intro input leaf length found
  cases input with
  | nil => cases found
  | cons c rest =>
    simp only [number?] at found
    split at found
    · cases found
      have := numeralTail_length_le rest
      simp only [List.length_cons]
      omega
    · cases found

theorem text?_bounded : Bounded text? := by
  intro input leaf length found
  obtain ⟨⟨content, size⟩, inner, same⟩ := Option.map_eq_some_iff.mp found
  cases same
  exact quoted?_bound inner

theorem quotedIdentifier?_bounded : Bounded quotedIdentifier? := by
  intro input leaf length found
  obtain ⟨⟨content, size⟩, inner, same⟩ := Option.map_eq_some_iff.mp found
  cases same
  exact quoted?_bound inner

theorem identifier?_bounded : Bounded identifier? := by
  intro input leaf length found
  unfold identifier? at found
  rcases Option.or_eq_some_iff.mp found with inner | ⟨_, inner⟩
  · exact quotedIdentifier?_bounded inner
  · dsimp only at inner
    split at inner
    · obtain ⟨⟨glyph, size⟩, sign, same⟩ := Option.map_eq_some_iff.mp inner
      cases same
      exact Table.longestSign?_ofEntries_bound sign
    · rename_i word
      split at inner
      · cases inner
        exact letters_bound word
      · split at inner
        · rename_i single
          cases inner
          have := letters_length_le input
          omega
        · cases inner

theorem operator?_bounded : Bounded operator? := by
  intro input leaf length found
  dsimp only [operator?] at found
  split at found
  · obtain ⟨⟨glyph, size⟩, sign, same⟩ := Option.map_eq_some_iff.mp found
    cases same
    exact Table.longestSign?_ofEntries_bound sign
  · rename_i word
    obtain ⟨glyph, _, same⟩ := Option.map_eq_some_iff.mp found
    cases same
    exact letters_bound word

theorem unknown?_bounded : Bounded unknown? := by
  intro input leaf length found
  dsimp only [unknown?] at found
  split at found
  · cases input with
    | nil => cases found
    | cons c rest =>
      dsimp only at found
      split at found
      · cases found
      · cases found
        simp
  · rename_i word
    cases found
    exact letters_bound word

end PlainMath.Lexeme
