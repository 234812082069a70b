import PlainMath.Markup.Element
import PlainMath.Proofs.Text.Plain
import PlainMath.Text.Blank

/-! The grammar of the text that is written: plain text, spaces that close
themselves, and elements whose start and end tags nest. Markup that is proper
throughout is written in this grammar, in every style whose indentation is blank. -/
namespace PlainMath.Markup
open PlainMath.Text

def tags : List String :=
  ["mrow", "mi", "mo", "mtext", "mn", "mfrac", "msub", "msup", "msubsup", "msqrt", "mroot",
    "munder", "mover", "munderover", "mtable", "mtr", "mtd"]

def Property (property : Option (String × String)) : Prop :=
  ∀ named ∈ property, named.1.toList.all Char.isAlphanum ∧ named.2.toList.all Char.isAlphanum

/-- Plain text and properly nested elements. Only a space has no end tag. -/
inductive Balanced : List Char → Prop
  | nil : Balanced []
  | text {text rest : List Char} : Plain text → Balanced rest → Balanced (text ++ rest)
  | space {property : Option (String × String)} {rest : List Char} : Property property →
      Balanced rest → Balanced ("<".toList ++ (heading "mspace" property).toList ++ " />".toList ++ rest)
  | element {tag : String} {property : Option (String × String)} {inner rest : List Char} :
      tag ∈ tags → Property property → Balanced inner → Balanced rest →
      Balanced ((startTag tag property).toList ++ inner ++ (endTag tag).toList ++ rest)

theorem Balanced.append {first second : List Char} (left : Balanced first)
    (right : Balanced second) : Balanced (first ++ second) := by
  induction left with
  | nil => exact right
  | text plain _ ih =>
    rw [List.append_assoc]
    exact .text plain ih
  | space named _ ih =>
    rw [List.append_assoc]
    exact .space named ih
  | element tag named inner _ _ ih =>
    rw [List.append_assoc]
    exact .element tag named inner ih

theorem balanced_of_plain {text : List Char} (plain : Plain text) : Balanced text := by
  simpa using Balanced.text plain .nil

theorem balanced_element {tag : String} {property : Option (String × String)} {inner : List Char}
    (known : tag ∈ tags) (named : Property property) (balanced : Balanced inner) :
    Balanced ((startTag tag property).toList ++ inner ++ (endTag tag).toList) := by
  simpa using Balanced.element known named balanced .nil

theorem balanced_join {texts : List String} (all : ∀ text ∈ texts, Balanced text.toList) :
    Balanced (String.join texts).toList := by
  rw [String.toList_join]
  induction texts with
  | nil => exact .nil
  | cons text texts ih =>
    obtain ⟨first, rest⟩ := List.forall_mem_cons.mp all
    exact first.append (ih rest)

def AtomProper : Atom → Prop
  | .filled tag property content => tag ∈ tags ∧ Property property ∧ Plain content.toList
  | .void tag property => tag = "mspace" ∧ Property property

inductive Proper : Markup → Prop
  | line {atoms : List Atom} : (∀ atom ∈ atoms, AtomProper atom) → Proper (.line atoms)
  | element {tag : String} {property : Option (String × String)} {parts : List Markup} :
      tag ∈ tags → Property property → (∀ part ∈ parts, Proper part) →
      Proper (.element tag property parts)

theorem balanced_atomText {atom : Atom} (proper : AtomProper atom) :
    Balanced (atomText atom).toList := by
  cases atom with
  | filled tag property content =>
    rw [atomText, String.toList_append, String.toList_append]
    exact balanced_element proper.1 proper.2.1 (balanced_of_plain proper.2.2)
  | void tag property =>
    rw [atomText, proper.1, String.toList_append, String.toList_append]
    simpa using Balanced.space proper.2 .nil

def BlankStyle : Style → Prop
  | .compact => True
  | .pretty indent => isBlankText indent.toList = true

variable {style : Style} (blank : BlankStyle style)

theorem ordinary_of_isBlank {c : Char} (blank : isBlank c = true) : Ordinary c := by
  refine ⟨?_, ?_, ?_⟩ <;> rintro rfl <;> exact absurd blank (by decide)

theorem isBlankText_indentation {indent : String} (blank : isBlankText indent.toList = true)
    (depth : Nat) : isBlankText (String.join (List.replicate depth indent)).toList = true := by
  refine List.all_eq_true.mpr fun c member => ?_
  rw [String.toList_join, List.mem_flatMap] at member
  obtain ⟨copy, copied, member⟩ := member
  rw [List.eq_of_mem_replicate copied] at member
  exact List.all_eq_true.mp blank c member

include blank in
theorem write_eq (depth : Nat) (line : String) :
    ∃ before behind : List Char, (style.write (depth, line)).toList = before ++ line.toList ++ behind ∧
      isBlankText before = true ∧ isBlankText behind = true ∧ (depth = 0 → before = []) := by
  cases style with
  | compact => exact ⟨[], [], by simp [Style.write], rfl, rfl, fun _ => rfl⟩
  | pretty indent =>
    refine ⟨(String.join (List.replicate depth indent)).toList, ['\n'], ?_, ?_, ?_, ?_⟩
    · simp [Style.write]
    · exact isBlankText_indentation blank depth
    · decide
    · rintro rfl
      rfl

theorem text_element (style : Style) (depth : Nat) (tag : String)
    (property : Option (String × String)) (parts : List Markup) :
    (text style depth (.element tag property parts)).toList =
      (style.write (depth, startTag tag property)).toList ++
        (String.join (parts.map (text style (depth + 1)))).toList ++
          (style.write (depth, endTag tag)).toList := by
  unfold text
  rw [lines, listLines_eq]
  simp only [List.map_cons, List.map_append, List.map_nil, List.map_flatMap, String.toList_join,
    List.flatMap_cons, List.flatMap_append, List.flatMap_nil, List.append_nil, List.append_assoc,
    List.flatMap_map, List.flatMap_assoc]

theorem balanced_of_blank {text : List Char} (blank : isBlankText text = true) : Balanced text := by
  refine balanced_of_plain (plain_of_ordinary fun c member => ?_)
  exact ordinary_of_isBlank (List.all_eq_true.mp blank c member)

include blank in
theorem text_element_eq (depth : Nat) (tag : String) (property : Option (String × String))
    {parts : List Markup}
    (balanced : ∀ part ∈ parts, Balanced (text style (depth + 1) part).toList) :
    ∃ before inner behind : List Char,
      (text style depth (.element tag property parts)).toList =
        before ++ ((startTag tag property).toList ++ inner ++ (endTag tag).toList) ++ behind ∧
      Balanced inner ∧ isBlankText before = true ∧ isBlankText behind = true ∧
      (depth = 0 → before = []) := by
  obtain ⟨before, inside, starts, blankBefore, blankInside, outermost⟩ :=
    write_eq blank depth (startTag tag property)
  obtain ⟨margin, behind, ends, blankMargin, blankBehind, _⟩ := write_eq blank depth (endTag tag)
  have middle : Balanced (String.join (parts.map (text style (depth + 1)))).toList := by
    refine balanced_join fun text member => ?_
    obtain ⟨part, listed, rfl⟩ := List.mem_map.mp member
    exact balanced part listed
  have inner := ((balanced_of_blank blankInside).append middle).append (balanced_of_blank blankMargin)
  refine ⟨before, _, behind, ?_, inner, blankBefore, blankBehind, outermost⟩
  rw [text_element, starts, ends]
  simp only [List.append_assoc]

include blank in
theorem balanced_text {markup : Markup} (proper : Proper markup) (depth : Nat) :
    Balanced (text style depth markup).toList := by
  induction proper generalizing depth with
  | @line atoms all =>
    have inner : Balanced (String.join (atoms.map atomText)).toList := by
      refine balanced_join fun text member => ?_
      obtain ⟨atom, listed, rfl⟩ := List.mem_map.mp member
      exact balanced_atomText (all atom listed)
    obtain ⟨before, behind, written, blankBefore, blankBehind, _⟩ :=
      write_eq blank depth (String.join (atoms.map atomText))
    have line : (text style depth (.line atoms)).toList =
        (style.write (depth, String.join (atoms.map atomText))).toList := by
      simp only [text, lines, List.map_cons, List.map_nil, String.toList_join,
        List.flatMap_singleton]
    rw [line, written]
    exact ((balanced_of_blank blankBefore).append inner).append (balanced_of_blank blankBehind)
  | @element tag property parts known named _ ih =>
    obtain ⟨before, inner, behind, written, balanced, blankBefore, blankBehind, _⟩ :=
      text_element_eq blank depth tag property fun part member => ih part member (depth + 1)
    rw [written]
    exact ((balanced_of_blank blankBefore).append (balanced_element known named balanced)).append
      (balanced_of_blank blankBehind)

end PlainMath.Markup
