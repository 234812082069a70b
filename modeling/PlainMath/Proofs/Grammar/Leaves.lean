import PlainMath.Lexeme
import PlainMath.Proofs.Symbol.Longest

/-! Which leaves each reader can give, and what their texts are made of. -/
namespace PlainMath

def Tree.leafText? : Tree → Option String
  | .identifier own | .operator own | .text own | .number own => some own
  | _ => none

namespace Lexeme
open PlainMath.Symbol

def readers : List (List Char → Option (Tree × Nat)) :=
  [number?, text?, identifier?, operator?, unknown?]

variable {input : List Char} {leaf : Tree} {length : Nat}

theorem mem_numeralTail {c : Char} (member : c ∈ numeralTail input) :
    c.isDigit = true ∨ isSeparator c = true := by
  fun_induction numeralTail input with
  | case1 => cases member
  | case2 d rest kept ih =>
    rcases List.mem_cons.mp member with rfl | later
    · simp only [Bool.or_eq_true, Bool.and_eq_true] at kept
      exact kept.imp_right And.left
    · exact ih later
  | case3 => cases member

theorem number?_eq_some (found : number? input = some (leaf, length)) :
    ∃ numeral : List Char, leaf = .number (String.ofList numeral) ∧
      ∀ c ∈ numeral, c.isDigit = true ∨ isSeparator c = true := by
  cases input with
  | nil => cases found
  | cons c rest =>
    simp only [number?] at found
    split at found
    · rename_i digit
      cases found
      refine ⟨c :: numeralTail rest, rfl, fun d member => ?_⟩
      rcases List.mem_cons.mp member with rfl | later
      · exact .inl digit
      · exact mem_numeralTail later
    · cases found

theorem quoted?_subset {quote : Char} {content : List Char}
    (found : quoted? quote input = some (content, length)) : content ⊆ input := by
  cases input with
  | nil => cases found
  | cons c rest =>
    simp only [quoted?] at found
    split at found
    · cases found
      exact fun c member => List.mem_cons_of_mem _ ((List.takeWhile_prefix _).subset member)
    · cases found

theorem text?_eq_some (found : text? input = some (leaf, length)) :
    ∃ content ⊆ input, leaf = .text (Text.escape content) := by
  obtain ⟨⟨content, size⟩, inner, same⟩ := Option.map_eq_some_iff.mp found
  cases same
  exact ⟨content, quoted?_subset inner, rfl⟩

theorem isLetter_of_mem_letters {c : Char} (member : c ∈ letters input) : isLetter c = true :=
  List.all_eq_true.mp (List.all_takeWhile) c member

theorem identifier?_eq_some (found : identifier? input = some (leaf, length)) :
    ∃ symbol, leaf = .identifier symbol ∧
      ((∃ content ⊆ input, symbol = Text.escape content) ∨
        (∃ entry ∈ identifierEntries, symbol = entry.2) ∨
        ∃ word : List Char, symbol = String.ofList word ∧ ∀ c ∈ word, isLetter c = true) := by
  unfold identifier? at found
  rcases Option.or_eq_some_iff.mp found with quoted | ⟨_, plain⟩
  · obtain ⟨⟨content, size⟩, inner, same⟩ := Option.map_eq_some_iff.mp quoted
    cases same
    exact ⟨_, rfl, .inl ⟨content, quoted?_subset inner, rfl⟩⟩
  · dsimp only at plain
    split at plain
    · obtain ⟨⟨glyph, size⟩, longest, same⟩ := Option.map_eq_some_iff.mp plain
      cases same
      obtain ⟨sign, member, rfl, _⟩ := Table.longestSign?_mem longest
      obtain ⟨entry, known, _, glyph⟩ := Table.entry_of_mem_signs member
      exact ⟨_, rfl, .inr (.inl ⟨entry, known, glyph.symm⟩)⟩
    · split at plain
      · rename_i glyph word
        cases plain
        obtain ⟨entry, known, _, glyph⟩ := Table.entry_of_mem_words (Table.word?_mem word)
        exact ⟨_, rfl, .inr (.inl ⟨entry, known, glyph.symm⟩)⟩
      · split at plain
        · cases plain
          exact ⟨_, rfl, .inr (.inr ⟨letters input, rfl, fun c => isLetter_of_mem_letters⟩)⟩
        · cases plain

theorem operator?_eq_some (found : operator? input = some (leaf, length)) :
    ∃ entry ∈ operatorEntries, leaf = .operator entry.2 := by
  dsimp only [operator?] at found
  split at found
  · obtain ⟨⟨glyph, size⟩, longest, same⟩ := Option.map_eq_some_iff.mp found
    cases same
    obtain ⟨sign, member, rfl, _⟩ := Table.longestSign?_mem longest
    obtain ⟨entry, known, _, glyph⟩ := Table.entry_of_mem_signs member
    exact ⟨entry, known, by rw [glyph]⟩
  · obtain ⟨glyph, word, same⟩ := Option.map_eq_some_iff.mp found
    cases same
    obtain ⟨entry, known, _, glyph⟩ := Table.entry_of_mem_words (Table.word?_mem word)
    exact ⟨entry, known, by rw [glyph]⟩

theorem unknown?_eq_some (found : unknown? input = some (leaf, length)) :
    (∃ word : List Char, leaf = .identifier (String.ofList word) ∧ ∀ c ∈ word, isLetter c = true) ∨
      ∃ c ∈ input, leaf = .operator (Text.escape [c]) := by
  dsimp only [unknown?] at found
  split at found
  · cases input with
    | nil => cases found
    | cons c rest =>
      dsimp only at found
      split at found
      · cases found
      · cases found
        exact .inr ⟨c, List.mem_cons_self, rfl⟩
  · cases found
    exact .inl ⟨letters input, rfl, fun c => isLetter_of_mem_letters⟩

theorem leafText?_of_reader {reader : List Char → Option (Tree × Nat)} (listed : reader ∈ readers)
    (found : reader input = some (leaf, length)) :
    ∃ text, leaf.leafText? = some text ∧ ((∃ raw ⊆ input, text = Text.escape raw) ∨
      (∃ entry ∈ identifierEntries ++ operatorEntries, text = entry.2) ∨
      ∃ word : List Char, text = String.ofList word ∧
        ∀ c ∈ word, c.isAlphanum = true ∨ isSeparator c = true) := by
  have spelled {word : List Char} (letters : ∀ c ∈ word, isLetter c = true) :
      ∀ c ∈ word, c.isAlphanum = true ∨ isSeparator c = true := fun c member =>
    .inl (by simpa [Char.isAlphanum] using .inl (letters c member))
  simp only [readers, List.mem_cons, List.not_mem_nil, or_false] at listed
  rcases listed with rfl | rfl | rfl | rfl | rfl
  · obtain ⟨numeral, rfl, digits⟩ := number?_eq_some found
    refine ⟨_, rfl, .inr (.inr ⟨numeral, rfl, fun c member => ?_⟩)⟩
    exact (digits c member).imp_left fun digit => by simp [Char.isAlphanum, digit]
  · obtain ⟨content, taken, rfl⟩ := text?_eq_some found
    exact ⟨_, rfl, .inl ⟨content, taken, rfl⟩⟩
  · obtain ⟨symbol, rfl, escaped | ⟨entry, member, known⟩ | ⟨word, same, letters⟩⟩ :=
      identifier?_eq_some found
    · exact ⟨_, rfl, .inl escaped⟩
    · exact ⟨_, rfl, .inr (.inl ⟨entry, List.mem_append_left _ member, known⟩)⟩
    · exact ⟨_, rfl, .inr (.inr ⟨word, same, spelled letters⟩)⟩
  · obtain ⟨entry, member, rfl⟩ := operator?_eq_some found
    exact ⟨_, rfl, .inr (.inl ⟨entry, List.mem_append_right _ member, rfl⟩)⟩
  · rcases unknown?_eq_some found with ⟨word, rfl, letters⟩ | ⟨c, first, rfl⟩
    · exact ⟨_, rfl, .inr (.inr ⟨word, rfl, spelled letters⟩)⟩
    · exact ⟨_, rfl, .inl ⟨[c], by simpa using first, rfl⟩⟩

theorem operator?_of_reader {reader : List Char → Option (Tree × Nat)} (listed : reader ∈ readers)
    {symbol : String} (found : reader input = some (.operator symbol, length)) :
    operator? input = some (.operator symbol, length) ∨ ∃ c, symbol = Text.escape [c] := by
  simp only [readers, List.mem_cons, List.not_mem_nil, or_false] at listed
  rcases listed with rfl | rfl | rfl | rfl | rfl
  · obtain ⟨numeral, other, _⟩ := number?_eq_some found
    cases other
  · obtain ⟨content, _, other⟩ := text?_eq_some found
    cases other
  · obtain ⟨symbol, other, _⟩ := identifier?_eq_some found
    cases other
  · exact .inl found
  · rcases unknown?_eq_some found with ⟨word, other, _⟩ | ⟨c, _, escaped⟩
    · cases other
    · exact .inr ⟨c, Tree.operator.inj escaped⟩

theorem escape_ne {text : String} (long : text.toList.length ≠ 1)
    (other : text.toList ∉ ["&amp;".toList, "&lt;".toList, "&gt;".toList]) (c : Char) :
    text ≠ Text.escape [c] := by
  intro same
  have spelled : text.toList = Text.escapeChar c := by simp [same, Text.escape]
  unfold Text.escapeChar at spelled
  split at spelled
  · exact other (by simp [spelled])
  · exact other (by simp [spelled])
  · exact other (by simp [spelled])
  · exact long (by simp [spelled])

end Lexeme
end PlainMath
