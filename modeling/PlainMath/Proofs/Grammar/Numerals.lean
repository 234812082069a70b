import Mathlib.Computability.Language
import PlainMath.Proofs.Grammar.Operands

/-! Numbers are read by maximal munch. The spellings of numbers are a regular language, and of
all its texts with which the input goes on the longest one is read: the loop goes on over a
separator only when a digit is behind it, so it never has to give a character back. -/
namespace PlainMath
open scoped Computability

namespace Lexeme

def digit : Language Char := {word | ∃ c : Char, c.isDigit = true ∧ word = [c]}

def separator : Language Char := {['.'], [','], [' ']}

/-- A digit, then digits and separated digits. -/
def numerals : Language Char := digit * (digit + separator * digit)∗

structure LongestOf (language : Language Char) (input word : List Char) : Prop where
  spelled : word ∈ language
  leads : word <+: input
  most : ∀ other ∈ language, other <+: input → other.length ≤ word.length

theorem mem_separator {word : List Char} :
    word ∈ separator ↔ ∃ c : Char, isSeparator c = true ∧ word = [c] := by
  constructor
  · rintro (rfl | rfl | rfl) <;> exact ⟨_, by decide, rfl⟩
  · rintro ⟨c, separates, rfl⟩
    simp only [isSeparator, Bool.or_eq_true, beq_iff_eq, or_assoc] at separates
    rcases separates with rfl | rfl | rfl
    · exact .inl rfl
    · exact .inr (.inl rfl)
    · exact .inr (.inr rfl)

theorem mem_separator_mul_digit {word : List Char} :
    word ∈ separator * digit ↔
      ∃ c d : Char, isSeparator c = true ∧ d.isDigit = true ∧ word = [c, d] := by
  constructor
  · rintro ⟨_, separated, _, ⟨d, digit, rfl⟩, rfl⟩
    obtain ⟨c, separator, rfl⟩ := mem_separator.mp separated
    exact ⟨c, d, separator, digit, rfl⟩
  · rintro ⟨c, d, separator, digit, rfl⟩
    exact ⟨[c], mem_separator.mpr ⟨c, separator, rfl⟩, [d], ⟨d, digit, rfl⟩, rfl⟩

theorem cons_mem_numerals {c : Char} {rest : List Char} (first : c.isDigit = true)
    (more : rest ∈ (digit + separator * digit)∗) : c :: rest ∈ numerals :=
  Language.append_mem_mul (a := [c]) ⟨c, first, rfl⟩ more

theorem piece_append_mem {piece rest : List Char} (one : piece ∈ digit + separator * digit)
    (more : rest ∈ (digit + separator * digit)∗) :
    piece ++ rest ∈ (digit + separator * digit)∗ := by
  obtain ⟨pieces, rfl, each⟩ := more
  exact ⟨piece :: pieces, rfl, List.forall_mem_cons.mpr ⟨one, each⟩⟩

theorem numeral_of_pieces {c : Char} (first : c.isDigit = true) (pieces : List (List Char))
    (each : ∀ piece ∈ pieces, piece ∈ digit + separator * digit) :
    Numeral (c :: pieces.flatten) := by
  induction pieces generalizing c with
  | nil => exact .last first
  | cons piece pieces ih =>
    obtain ⟨one, rest⟩ := List.forall_mem_cons.mp each
    rcases one with ⟨d, digit, rfl⟩ | separated
    · exact .digit first (ih digit rest)
    · obtain ⟨s, d, separator, digit, rfl⟩ := mem_separator_mul_digit.mp separated
      exact .separated first separator (ih digit rest)

theorem mem_numerals_iff {text : List Char} : text ∈ numerals ↔ Numeral text := by
  constructor
  · rintro ⟨_, ⟨c, first, rfl⟩, _, ⟨pieces, rfl, each⟩, rfl⟩
    exact numeral_of_pieces first pieces each
  · intro spelled
    induction spelled with
    | last first => exact cons_mem_numerals first (Language.nil_mem_kstar _)
    | digit first _ ih =>
      obtain ⟨_, one, rest, more, rfl⟩ := ih
      exact cons_mem_numerals first (piece_append_mem (.inl one) more)
    | separated first separator _ ih =>
      obtain ⟨_, ⟨d, digit, rfl⟩, rest, more, rfl⟩ := ih
      have pair := mem_separator_mul_digit.mpr ⟨_, d, separator, digit, rfl⟩
      exact cons_mem_numerals first (piece_append_mem (.inr pair) more)

theorem digit_of_adjacent {text : List Char} (spelled : Numeral text) {c d : Char}
    (adjacent : [c, d] <:+: text) : c.isDigit = true ∨ d.isDigit = true := by
  induction spelled with
  | last _ => simpa using adjacent.length_le
  | digit first _ ih =>
    rcases List.infix_cons_iff.mp adjacent with leads | later
    · exact .inl ((List.cons_prefix_cons.mp leads).1 ▸ first)
    · exact ih later
  | separated first _ spelled ih =>
    rcases List.infix_cons_iff.mp adjacent with leads | later
    · exact .inl ((List.cons_prefix_cons.mp leads).1 ▸ first)
    · rcases List.infix_cons_iff.mp later with leads | later
      · obtain ⟨e, rest, rfl, digit⟩ := numeral_eq_cons spelled
        exact .inr ((List.cons_prefix_cons.mp (List.cons_prefix_cons.mp leads).2).1 ▸ digit)
      · exact ih later

theorem digit_of_getLast? {text : List Char} (spelled : Numeral text) {c : Char}
    (last : c ∈ text.getLast?) : c.isDigit = true := by
  induction spelled with
  | last digit =>
    cases last
    exact digit
  | digit _ spelled ih =>
    obtain ⟨d, rest, rfl, _⟩ := numeral_eq_cons spelled
    exact ih (by rwa [List.getLast?_cons_cons] at last)
  | separated _ _ spelled ih =>
    obtain ⟨d, rest, rfl, _⟩ := numeral_eq_cons spelled
    exact ih (by rwa [List.getLast?_cons_cons, List.getLast?_cons_cons] at last)

theorem numeralTail_leads (input : List Char) : numeralTail input <+: input := by
  fun_induction numeralTail input with
  | case1 => exact List.prefix_rfl
  | case2 c rest _ ih => exact List.cons_prefix_cons.mpr ⟨rfl, ih⟩
  | case3 => exact List.nil_prefix

theorem numeral_numeralTail (input : List Char) :
    (∀ c : Char, c.isDigit = true → Numeral (c :: numeralTail input)) ∧
      (input.head?.any Char.isDigit = true → Numeral (numeralTail input)) := by
  -- the second half is what the iteration over a separator hands on to the next one
  fun_induction numeralTail input with
  | case1 => exact ⟨fun c digit => .last digit, by simp⟩
  | case2 d rest kept ih =>
    refine ⟨fun c first => ?_, fun digit => ih.1 d (by simpa using digit)⟩
    rcases Bool.or_eq_true_iff.mp kept with digit | separated
    · exact .digit first (ih.1 d digit)
    · obtain ⟨separator, next⟩ := Bool.and_eq_true_iff.mp separated
      exact .separated first separator (ih.2 next)
  | case3 d rest other =>
    refine ⟨fun c digit => .last digit, fun digit => absurd ?_ other⟩
    simp_all

theorem number?_of_digit {input : List Char} (first : input.head?.any Char.isDigit = true) :
    number? input =
      some (.number (String.ofList (numeralTail input)), (numeralTail input).length) := by
  cases input with
  | nil => cases first
  | cons c rest =>
    have digit : c.isDigit = true := by simpa using first
    have whole : numeralTail (c :: rest) = c :: numeralTail rest := by simp [numeralTail, digit]
    rw [whole, number?, if_pos digit]

theorem number?_eq_none {input : List Char} (other : input.head?.any Char.isDigit = false) :
    number? input = none := by
  cases input with
  | nil => rfl
  | cons c rest =>
    have other : c.isDigit = false := by simpa using other
    simp [number?, other]

theorem prefix_numeralTail {text input : List Char} (spelled : Numeral text)
    (leads : text <+: input) : text <+: numeralTail input := by
  obtain ⟨behind, rfl⟩ := leads
  exact ⟨numeralTail behind, (numeralTail_numeral spelled behind).symm⟩

theorem longestOf_numeralTail {input : List Char} (first : input.head?.any Char.isDigit = true) :
    LongestOf numerals input (numeralTail input) :=
  ⟨mem_numerals_iff.mpr ((numeral_numeralTail input).2 first), numeralTail_leads input,
    fun _ spelled leads => (prefix_numeralTail (mem_numerals_iff.mp spelled) leads).length_le⟩

theorem LongestOf.append_eq {language : Language Char} {behind word more : List Char}
    (longest : LongestOf language (word ++ behind) word) (leads : more <+: behind)
    (spelled : word ++ more ∈ language) : more = [] := by
  have bound := longest.most _ spelled ((List.prefix_append_right_inj word).mpr leads)
  rw [List.length_append] at bound
  exact List.length_eq_zero_iff.mp (by omega)

end Lexeme

namespace Grammar
open Lexeme

/-- A number is read exactly where a digit stands. What is read is the longest text of the
language with which the input goes on, and no part of what is left would make it longer. It has
neither two dots nor two blanks in a row, and its last character is a digit. -/
theorem leaf?_number?_longest (cursor : Cursor) :
    (leaf? number? cursor).isSome = cursor.rest.head?.any Char.isDigit ∧
    ∀ tree after, leaf? number? cursor = some (tree, after) →
      ∃ numeral, LongestOf numerals cursor.rest numeral ∧
        tree = .number (String.ofList numeral) ∧
        after = cursor.advance numeral.length ∧ cursor.rest = numeral ++ after.rest ∧
        (∀ more, more <+: after.rest → numeral ++ more ∈ numerals → more = []) ∧
        ¬ "..".toList <:+: numeral ∧ ¬ "  ".toList <:+: numeral ∧
        ∀ c ∈ numeral.getLast?, c.isDigit = true := by
  cases first : cursor.rest.head?.any Char.isDigit with
  | false =>
    have unread : leaf? number? cursor = none := by
      rw [leaf?, number?_eq_none first, Option.map_none]
    exact ⟨by rw [unread]; rfl, fun _ _ found => by cases unread.symm.trans found⟩
  | true =>
    have read := number?_of_digit first
    have longest := longestOf_numeralTail first
    generalize numeralTail cursor.rest = numeral at read longest
    have found : leaf? number? cursor =
        some (.number (String.ofList numeral), cursor.advance numeral.length) := by
      rw [leaf?, read, Option.map_some]
    refine ⟨by rw [found]; rfl, fun _ _ same => ?_⟩
    cases found.symm.trans same
    have spelled := mem_numerals_iff.mp longest.spelled
    have apart {c : Char} (other : c.isDigit = false) : ¬ [c, c] <:+: numeral := fun adjacent => by
      simpa [other] using digit_of_adjacent spelled adjacent
    obtain ⟨behind, whole⟩ := longest.leads
    have left : (cursor.advance numeral.length).rest = behind := by
      rw [Cursor.rest_advance, ← whole, List.drop_left]
    rw [left]
    refine ⟨numeral, longest, rfl, rfl, whole.symm, fun more leads longer => ?_,
      apart (by decide), apart (by decide), fun c last => digit_of_getLast? spelled last⟩
    rw [← whole] at longest
    exact longest.append_eq leads longer

end Grammar
end PlainMath
