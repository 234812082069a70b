import Mathlib.Algebra.Group.Nat.Even
import PlainMath.Document
import PlainMath.Proofs.Text.Pieces

/-! Documents are rendered region by region. The regions are the text between the
delimiters, prose and notation in turn, and nothing of it is lost. Where a text is divided
outside of notation and not inside a delimiter, its two parts can be rendered on their own. -/
namespace PlainMath

namespace Segment

def content : Segment → String
  | .prose text => text
  | .formula text => text

def isProse : Segment → Bool
  | .prose _ => true
  | .formula _ => false

end Segment

namespace Document
open Text

theorem alternate_cons (prose : Bool) (piece : List Char) (pieces : List (List Char)) :
    alternate prose (piece :: pieces) =
      (if prose then .prose (String.ofList piece) else .formula (String.ofList piece)) ::
        alternate (!prose) pieces := by
  cases prose <;> rfl

theorem content_alternate (prose : Bool) (pieces : List (List Char)) :
    (alternate prose pieces).map (fun segment => segment.content.toList) = pieces := by
  induction pieces generalizing prose with
  | nil => cases prose <;> rfl
  | cons piece pieces ih =>
    rw [alternate_cons, List.map_cons, ih]
    cases prose <;> simp [Segment.content]

theorem isProse_alternate {prose : Bool} {pieces : List (List Char)} {index : Nat}
    {segment : Segment} (here : (alternate prose pieces)[index]? = some segment) :
    segment.isProse = true ↔ (prose = true ↔ Even index) := by
  induction pieces generalizing prose index with
  | nil => cases prose <;> cases here
  | cons piece pieces ih =>
    rw [alternate_cons] at here
    cases index with
    | zero =>
      cases here
      cases prose <;> simp [Segment.isProse]
    | succ index =>
      rw [ih here, Nat.even_add_one]
      cases prose <;> by_cases even : Even index <;> simp [even]

def rendered (options : Options) (prose : Bool) (pieces : List (List Char)) : String :=
  String.join ((alternate prose pieces).map (renderSegment options))

theorem rendered_cons (options : Options) (prose : Bool) (piece : List Char)
    (pieces : List (List Char)) : rendered options prose (piece :: pieces) =
      rendered options prose [piece] ++ rendered options (!prose) pieces := by
  cases prose <;> simp [rendered, alternate, String.join_cons]

theorem rendered_splice (options : Options) {prose : Bool} {pieces : List (List Char)}
    (later : List (List Char)) (turn : prose = true ↔ ¬ Even pieces.length)
    (nonempty : pieces ≠ []) :
    rendered options prose (splice pieces later) =
      rendered options prose pieces ++ rendered options true later := by
  induction pieces generalizing prose with
  | nil => exact absurd rfl nonempty
  | cons piece more ih =>
    cases more with
    | nil =>
      have first : prose = true := turn.mpr (by simp)
      rw [first]
      cases later with
      | nil => simp [rendered, splice, alternate]
      | cons next later =>
        simp [rendered, splice, alternate, renderSegment, String.join_cons, String.append_assoc]
    | cons next more =>
      have turn' : (!prose) = true ↔ ¬ Even (next :: more).length := by
        rw [List.length_cons, Nat.even_add_one, not_not] at turn
        rw [← turn, Bool.not_eq_true', Bool.not_eq_true]
      rw [splice, rendered_cons, ih turn' (List.cons_ne_nil _ _), ← String.append_assoc,
        ← rendered_cons]

/-- With a delimiter that is not empty, the segments of a text are prose and notation in turn,
starting with prose. They hold no delimiter, there is one more of them than there are delimiters,
and with the delimiter between them they are the text. Two texts are rendered on their own where
the first has an even number of delimiters and no delimiter goes across the seam. -/
theorem render_splices {delimiter : String} (named : delimiter ≠ "") :
    (∀ text,
      (segments text delimiter).length = occurrences delimiter.toList text.toList + 1 ∧
      (∀ (index : Nat) (segment : Segment), (segments text delimiter)[index]? = some segment →
        (segment.isProse = true ↔ Even index)) ∧
      (∀ segment ∈ segments text delimiter, ¬ delimiter.toList <:+: segment.content.toList) ∧
      join delimiter.toList ((segments text delimiter).map fun segment => segment.content.toList) =
        text.toList) ∧
    ∀ front back options, Even (occurrences delimiter.toList front.toList) →
      Uncrossed delimiter.toList front.toList back.toList →
      render (front ++ back) delimiter options =
        render front delimiter options ++ render back delimiter options := by
  have spelled : delimiter.toList ≠ [] := by simpa using named
  refine ⟨fun text => ⟨?_, ?_, ?_, ?_⟩, ?_⟩
  · rw [← length_splitOn spelled, ← content_alternate true (splitOn _ _), List.length_map]
    rfl
  · intro index segment here
    rw [isProse_alternate here]
    simp
  · intro segment listed
    apply not_infix_of_mem_splitOn spelled
    rw [← content_alternate true (splitOn delimiter.toList text.toList)]
    exact List.mem_map_of_mem listed
  · rw [segments, content_alternate, join_splitOn spelled]
  · intro front back options even uncrossed
    have turn : true = true ↔ ¬ Even (splitOn delimiter.toList front.toList).length := by
      rw [length_splitOn spelled, Nat.even_add_one, not_not]
      exact iff_of_true rfl even
    have cut : render (front ++ back) delimiter options = rendered options true
        (splice (splitOn delimiter.toList front.toList) (splitOn delimiter.toList back.toList)) := by
      rw [render, segments, String.toList_append, splitOn_append spelled uncrossed]
      rfl
    rw [cut, rendered_splice options _ turn (splitOn_ne_nil _ _)]
    rfl

theorem render_splices_hashes :
    Even (occurrences "##".toList "a###x##b".toList) ∧
    Uncrossed "##".toList "a###x##b".toList "#c##y".toList ∧
    render ("a###x##b" ++ "#c##y") "##" {} =
      render "a###x##b" "##" {} ++ render "#c##y" "##" {} := by
  have even : Even (occurrences "##".toList "a###x##b".toList) := by
    have two : occurrences "##".toList "a###x##b".toList = 2 := by
      simp [occurrences, List.isPrefixOf]
    rw [two]
    decide
  have uncrossed : Uncrossed "##".toList "a###x##b".toList "#c##y".toList := by
    unfold Uncrossed
    decide
  exact ⟨even, uncrossed, (render_splices (by decide)).2 _ _ {} even uncrossed⟩

end Document
end PlainMath
