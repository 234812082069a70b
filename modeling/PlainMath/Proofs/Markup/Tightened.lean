import PlainMath.Compile
import PlainMath.Proofs.Arrow.Written
import PlainMath.Proofs.Markup.Drawn

/-! Pretty text without its layout is compact text. Every line of markup starts and ends with a
tag, so that trimming takes off the indentation and nothing else, as long as no text in the tree
breaks a line in two. -/
namespace PlainMath

namespace Text

def tighten (text : String) : String := String.ofList ((lines text.toList).flatMap trim)

def Tagged (line : List Char) : Prop :=
  '\n' ∉ line ∧ line.head? = some '<' ∧ line.getLast? = some '>'

instance (line : List Char) : Decidable (Tagged line) := inferInstanceAs (Decidable (_ ∧ _ ∧ _))

theorem Tagged.trim_append {line lead : List Char} (tagged : Tagged line)
    (blank : isBlankText lead = true) : trim (lead ++ line) = line := by
  obtain ⟨_, first, last⟩ := tagged
  have more : line ≠ [] := by
    rintro rfl
    cases first
  have front : ∀ c ∈ line.head?, isBlank c = false := by
    rw [first]
    intro c here
    cases here
    decide
  have back : ∀ c ∈ line.getLast?, isBlank c = false := by
    rw [last]
    intro c here
    cases here
    decide
  have trimmed := Arrow.trim_append blank (List.all_nil : isBlankText [] = true) more front back
  rwa [List.append_nil] at trimmed

theorem flatMap_trim_lines {line : List Char} (tagged : Tagged line) (rest : List Char)
    {lead : List Char} (blank : isBlankText lead = true) :
    (lines (lead ++ (line ++ '\n' :: rest))).flatMap trim = line ++ (lines rest).flatMap trim := by
  -- `margin` is what the lead has on the last of its lines so far
  suffices started : ∀ margin : List Char, isBlankText margin = true → '\n' ∉ margin →
      (lines (margin ++ (lead ++ (line ++ '\n' :: rest)))).flatMap trim =
        line ++ (lines rest).flatMap trim from started [] rfl (by simp)
  induction lead with
  | nil =>
    intro margin bare single
    have whole : '\n' ∉ margin ++ line := by simp [single, tagged.1]
    rw [List.nil_append, ← List.append_assoc, lines_append whole, List.flatMap_cons,
      tagged.trim_append bare]
  | cons c lead ih =>
    intro margin bare single
    obtain ⟨first, others⟩ : isBlank c = true ∧ isBlankText lead = true := by
      simpa [isBlankText] using blank
    by_cases ends : c = '\n'
    · have nothing : trim margin = [] := by
        rw [trim, trimStart, List.dropWhile_eq_nil_iff.mpr (List.all_eq_true.mp bare)]
        rfl
      rw [ends, List.cons_append, lines_append single, List.flatMap_cons, nothing]
      exact ih others [] rfl (by simp)
    · have next := ih others (margin ++ [c]) (by simpa [isBlankText, first] using bare)
        (by simpa [single] using Ne.symm ends)
      rwa [List.append_assoc] at next

theorem not_mem_replaceAll {old new text : List Char} {c : Char} (new' : c ∉ new)
    (absent : c ∉ text) : c ∉ replaceAll old new text := by
  intro member
  rcases mem_join member with between | ⟨piece, listed, inside⟩
  · exact new' between
  · exact absent (mem_of_mem_splitOn listed inside)

theorem Tagged.around {start stop middle : List Char} (first : Tagged start) (last : Tagged stop)
    (free : '\n' ∉ middle) : Tagged (start ++ middle ++ stop) := by
  obtain ⟨single, front, _⟩ := first
  obtain ⟨single', _, back⟩ := last
  refine ⟨by simp [single, single', free], ?_, ?_⟩
  · rw [List.append_assoc, List.head?_append, front]
    rfl
  · rw [List.getLast?_append, back]
    rfl

end Text

namespace Markup
open Text

theorem not_mem_heading_break {tag : String} {property : Option (String × String)}
    (known : tag ∈ "math" :: tags) (named : Property property) :
    '\n' ∉ (heading tag property).toList := by
  have free : ∀ tag ∈ "math" :: tags, '\n' ∉ tag.toList := by decide
  have spelled {word : String} (all : word.toList.all Char.isAlphanum = true) :
      '\n' ∉ word.toList := fun member => absurd (List.all_eq_true.mp all _ member) (by decide)
  cases property with
  | none => exact free tag known
  | some named' =>
    obtain ⟨name, value⟩ := named'
    obtain ⟨name', value'⟩ := named (name, value) rfl
    simp [heading, free tag known, spelled name', spelled value']

theorem tagged_startTag {tag : String} {property : Option (String × String)}
    (known : tag ∈ "math" :: tags) (named : Property property) :
    Tagged (startTag tag property).toList := by
  have free := not_mem_heading_break known named
  refine ⟨by simpa [startTag] using free, by simp [startTag], ?_⟩
  rw [startTag, String.toList_append, List.getLast?_append]
  rfl

theorem tagged_endTag {tag : String} (known : tag ∈ "math" :: tags) :
    Tagged (endTag tag).toList := by
  have free := not_mem_heading_break known property_none
  refine ⟨by simpa [endTag, heading] using free, by simp [endTag], ?_⟩
  rw [endTag, String.toList_append, List.getLast?_append]
  rfl

def Lined (markup : Markup) : Prop := ∀ depth, ∀ line ∈ markup.lines depth, Tagged line.2.toList

theorem lined_line {atoms : List Atom} (tagged : Tagged (String.join (atoms.map atomText)).toList) :
    Lined (.line atoms) := by
  intro depth line member
  rw [lines, List.mem_singleton] at member
  rw [member]
  exact tagged

theorem lined_atom {tag content : String} {property : Option (String × String)} (known : tag ∈ tags)
    (named : Property property) (free : '\n' ∉ content.toList) :
    Lined (.line [.filled tag property content]) := by
  have known : tag ∈ "math" :: tags := List.mem_cons_of_mem _ known
  have around := (tagged_startTag known named).around (tagged_endTag known) free
  exact lined_line (by simpa [atomText] using around)

theorem lined_element {tag : String} {property : Option (String × String)} {parts : List Markup}
    (known : tag ∈ "math" :: tags) (named : Property property) (all : ∀ part ∈ parts, Lined part) :
    Lined (.element tag property parts) := by
  intro depth line member
  rw [lines, listLines_eq, List.mem_cons, List.mem_append, List.mem_singleton,
    List.mem_flatMap] at member
  rcases member with rfl | ⟨part, listed, inside⟩ | rfl
  · exact tagged_startTag known named
  · exact all part listed (depth + 1) line inside
  · exact tagged_endTag known

theorem lined_draws : Draws (fun text => '\n' ∉ text.toList) Lined where
  nothing := by decide
  overbrace := by decide
  underbrace := by decide
  atom := lined_atom
  quotation {content} free := by
    refine lined_atom (by decide) property_none ?_
    have micro : '\n' ∉ replaceAll "\\u".toList "&micro;".toList content.toList :=
      not_mem_replaceAll (by decide) free
    simpa using micro
  differential := lined_line (by decide)
  gap := lined_line (by decide)
  element known all := lined_element (List.mem_cons_of_mem _ known) property_none all

theorem flatMap_trim_written {indent : String} (blank : isBlankText indent.toList = true)
    {written : List (Nat × String)} (tagged : ∀ line ∈ written, Tagged line.2.toList) :
    (Text.lines (String.join (written.map (Style.pretty indent).write)).toList).flatMap trim =
      (String.join (written.map Style.compact.write)).toList := by
  rw [String.toList_join, String.toList_join]
  induction written with
  | nil =>
    rw [List.map_nil, List.flatMap_nil, lines_single (by simp)]
    rfl
  | cons line written ih =>
    obtain ⟨first, others⟩ := List.forall_mem_cons.mp tagged
    have spelled : ((Style.pretty indent).write line).toList =
        (String.join (List.replicate line.1 indent)).toList ++ (line.2.toList ++ ['\n']) := by
      simp [Style.write]
    rw [List.map_cons, List.flatMap_cons, spelled, List.append_assoc, List.append_assoc,
      List.singleton_append, flatMap_trim_lines first _ (isBlankText_indentation blank line.1),
      ih others]
    rfl

theorem tighten_text {markup : Markup} (lined : Lined markup) {indent : String}
    (blank : isBlankText indent.toList = true) (depth : Nat) :
    tighten (markup.text (.pretty indent) depth) = markup.text .compact depth := by
  rw [tighten, text, flatMap_trim_written blank (lined depth), String.ofList_toList, text]

end Markup
end PlainMath
