import PlainMath.Compile
import PlainMath.Proofs.Layout.Passes
import PlainMath.Proofs.Markup.Drawn

/-! Every compiled source is well-formed markup. The texts that a tree holds are
plain from the moment they are read: dictionary and bracket glyphs, numbers, words and
escaped text all are. Layout moves them about but makes only plain ones of its own, and
each kind of node writes them between tags that match. -/
namespace PlainMath
open PlainMath.Text

namespace Tree

def Ready : Tree → Prop
  | .identifier own | .operator own | .text own | .number own => Plain own.toList
  | .bracketed left right _ => Plain left.toList ∧ Plain right.toList
  | .limits glyph _ _ => Plain glyph.toList
  | _ => True

theorem ready_foldable : Layout.Foldable Ready where
  map {f tree} ready := by cases tree <;> exact ready
  blank := .nil
  superscriptSign := plain_of_isPlain (by decide)
  logicalNot := plain_of_isPlain (by decide)
  leftover {symbol} ready := by
    change Plain (Layout.leftover symbol).toList
    unfold Layout.leftover
    split
    · exact plain_of_isPlain (by decide)
    · split
      · exact plain_of_isPlain (by decide)
      · exact ready
  primes count := by
    change Plain (String.ofList (List.replicate count Glyph.prime.toList).flatten).toList
    rw [String.toList_ofList, ← List.flatMap_id]
    refine plain_flatMap fun prime member => ?_
    rw [List.eq_of_mem_replicate member]
    exact plain_of_isPlain (by decide)
  row _ := trivial
  cluster _ := trivial
  fraction := trivial
  scripted _ := trivial
  root := trivial
  limits ready := ready
  stackedLimits := trivial
  brace := trivial
  sideBySide _ _ _ _ := trivial

theorem ready_of_leafText? {leaf : Tree} {text : String} (own : leaf.leafText? = some text)
    (plain : Plain text.toList) : leaf.Ready := by
  cases leaf with
  | identifier _ | operator _ | text _ | number _ =>
    cases own
    exact plain
  | _ => cases own

theorem plain_entries :
    ∀ entry ∈ Symbol.identifierEntries ++ Symbol.operatorEntries, Plain entry.2.toList := by
  have accepted : ∀ entry ∈ Symbol.identifierEntries ++ Symbol.operatorEntries,
      isPlain none entry.2.toList = true := by decide +kernel
  exact fun entry member => plain_of_isPlain (accepted entry member)

theorem ready_readable : Layout.Readable Ready where
  leaf reader listed {input leaf length} found := by
    obtain ⟨text, own, made⟩ := Lexeme.leafText?_of_reader listed found
    refine ready_of_leafText? own ?_
    rcases made with ⟨raw, _, rfl⟩ | ⟨entry, member, rfl⟩ | ⟨word, rfl, letters⟩
    · exact plain_escape raw
    · exact plain_entries entry member
    · rw [String.toList_ofList]
      refine plain_of_ordinary fun c member => ?_
      have known := letters c member
      refine ⟨?_, ?_, ?_⟩ <;> rintro rfl <;> exact absurd known (by decide)
  grid _ _ _ := trivial
  bracketed {bracket right contents} opened closed := by
    have openers : ∀ bracket ∈ Bracket.all, isPlain none bracket.glyph.toList = true := by decide
    have closers : ∀ closer ∈ Bracket.closers, isPlain none closer.2.toList = true := by decide
    refine ⟨plain_of_isPlain (openers bracket opened), ?_⟩
    rcases closed with rfl | ⟨closer, member, rfl⟩
    · exact .nil
    · exact plain_of_isPlain (closers closer member)

end Tree

namespace Markup

theorem proper_quotation {content : String} (plain : Plain content.toList) :
    Proper (quotation content) := by
  have thin : Plain "&thinsp;".toList := plain_of_isPlain (by decide)
  have sign : Plain "&micro;".toList := plain_of_isPlain (by decide)
  have spelled : "\\u".toList = ['\\', 'u'] := by decide
  have micro : Plain (replaceAll "\\u".toList "&micro;".toList content.toList) := by
    rw [spelled]
    exact plain_replaceAll (by decide) (by decide) (List.forall_mem_singleton.mpr (by decide)) sign plain
  unfold quotation
  generalize replaceAll "\\u".toList "&micro;".toList content.toList = replaced at micro
  have whole : Plain ("&thinsp;" ++ String.ofList replaced ++ "&thinsp;").toList := by
    rw [String.toList_append, String.toList_append, String.toList_ofList (l := replaced)]
    exact (thin.append micro).append thin
  exact .line (by simpa using ⟨by decide, property_none, whole⟩)

theorem proper_draws : Draws (fun text => Plain text.toList) Proper where
  nothing := .nil
  overbrace := plain_of_isPlain (by decide)
  underbrace := plain_of_isPlain (by decide)
  atom known named plain := .line (by simpa using ⟨known, named, plain⟩)
  quotation := proper_quotation
  differential := by
    have thin : Property (some ("width", "thinmathspace")) := by simp [Property]
    have letter : Plain "d".toList := plain_of_isPlain (by decide)
    exact .line (by simpa [AtomProper] using ⟨thin, by decide, property_none, letter⟩)
  gap := by
    have wide : Property (some ("width", "1ex")) := by simp [Property]
    exact .line (by simpa [AtomProper] using wide)
  element known all := .element known property_none all

end Markup

namespace Tree
open PlainMath.Markup

theorem plain_texts {tree : Tree} (ready : tree.Ready) : ∀ text ∈ tree.texts, Plain text.toList := by
  cases tree with
  | identifier | operator | text | number | limits | bracketed => simpa [texts, Ready] using ready
  | _ => simp [texts]

theorem proper_markup {tree : Tree} (built : Built Ready tree) : Proper tree.markup := by
  refine proper_draws.markup (built.forall_nodes ?_ fun built => plain_texts built.here)
  simp [texts, emptyRow]

end Tree

open PlainMath.Markup

theorem blankStyle_of_options {options : Options}
    (blank : options.pretty = true → isBlankText options.indent.toList = true) :
    BlankStyle options.style := by
  unfold Options.style
  by_cases pretty : options.pretty = true
  · rw [if_pos pretty]
    exact blank pretty
  · rw [if_neg pretty]
    trivial

end PlainMath
