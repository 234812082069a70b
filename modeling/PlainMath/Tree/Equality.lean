import PlainMath.Tree.Basic

/-! Equality of trees is decided part by part. -/
namespace PlainMath.Tree

mutual

def same : Tree → Tree → Bool
  | .grid rows, other => match other with
    | .grid rows' => sameRows rows rows'
    | _ => false
  | .row elements, other => match other with
    | .row elements' => sameList elements elements'
    | _ => false
  | .cluster elements, other => match other with
    | .cluster elements' => sameList elements elements'
    | _ => false
  | .bracketed left right contents, other => match other with
    | .bracketed left' right' contents' =>
      left == left' && right == right' && sameOption contents contents'
    | _ => false
  | .identifier symbol, other => match other with
    | .identifier symbol' => symbol == symbol'
    | _ => false
  | .operator symbol, other => match other with
    | .operator symbol' => symbol == symbol'
    | _ => false
  | .text content, other => match other with
    | .text content' => content == content'
    | _ => false
  | .number numeral, other => match other with
    | .number numeral' => numeral == numeral'
    | _ => false
  | .fraction numerator denominator, other => match other with
    | .fraction numerator' denominator' =>
      same numerator numerator' && same denominator denominator'
    | _ => false
  | .scripted base subscript superscript, other => match other with
    | .scripted base' subscript' superscript' =>
      same base base' && sameOption subscript subscript' && sameOption superscript superscript'
    | _ => false
  | .root radicand index, other => match other with
    | .root radicand' index' => same radicand radicand' && sameOption index index'
    | _ => false
  | .limits glyph lower upper, other => match other with
    | .limits glyph' lower' upper' =>
      glyph == glyph' && same lower lower' && sameOption upper upper'
    | _ => false
  | .stackedLimits base lower upper, other => match other with
    | .stackedLimits base' lower' upper' =>
      same base base' && same lower lower' && sameOption upper upper'
    | _ => false
  | .brace side base comment, other => match other with
    | .brace side' base' comment' =>
      side == side' && same base base' && same comment comment'
    | _ => false
termination_by structural tree => tree

def sameList : List Tree → List Tree → Bool
  | [], others => others.isEmpty
  | tree :: trees, others => match others with
    | tree' :: trees' => same tree tree' && sameList trees trees'
    | [] => false
termination_by structural trees => trees

def sameRows : List (List Tree) → List (List Tree) → Bool
  | [], others => others.isEmpty
  | cells :: rows, others => match others with
    | cells' :: rows' => sameList cells cells' && sameRows rows rows'
    | [] => false
termination_by structural rows => rows

def sameOption : Option Tree → Option Tree → Bool
  | none, other => other.isNone
  | some tree, other => match other with
    | some tree' => same tree tree'
    | none => false
termination_by structural option => option

end

mutual

theorem eq_of_same : ∀ {tree other : Tree}, same tree other = true → tree = other
  | .grid _, other, equal => by
      cases other <;> simp only [same, Bool.false_eq_true] at equal
      rw [eq_of_sameRows equal]
  | .row _, other, equal => by
      cases other <;> simp only [same, Bool.false_eq_true] at equal
      rw [eq_of_sameList equal]
  | .cluster _, other, equal => by
      cases other <;> simp only [same, Bool.false_eq_true] at equal
      rw [eq_of_sameList equal]
  | .bracketed _ _ _, other, equal => by
      cases other <;> simp only [same, Bool.false_eq_true, Bool.and_eq_true, beq_iff_eq] at equal
      rw [equal.1.1, equal.1.2, eq_of_sameOption equal.2]
  | .identifier _, other, equal => by
      cases other <;> simp only [same, Bool.false_eq_true, beq_iff_eq] at equal
      rw [equal]
  | .operator _, other, equal => by
      cases other <;> simp only [same, Bool.false_eq_true, beq_iff_eq] at equal
      rw [equal]
  | .text _, other, equal => by
      cases other <;> simp only [same, Bool.false_eq_true, beq_iff_eq] at equal
      rw [equal]
  | .number _, other, equal => by
      cases other <;> simp only [same, Bool.false_eq_true, beq_iff_eq] at equal
      rw [equal]
  | .fraction _ _, other, equal => by
      cases other <;> simp only [same, Bool.false_eq_true, Bool.and_eq_true] at equal
      rw [eq_of_same equal.1, eq_of_same equal.2]
  | .scripted _ _ _, other, equal => by
      cases other <;> simp only [same, Bool.false_eq_true, Bool.and_eq_true] at equal
      rw [eq_of_same equal.1.1, eq_of_sameOption equal.1.2, eq_of_sameOption equal.2]
  | .root _ _, other, equal => by
      cases other <;> simp only [same, Bool.false_eq_true, Bool.and_eq_true] at equal
      rw [eq_of_same equal.1, eq_of_sameOption equal.2]
  | .limits _ _ _, other, equal => by
      cases other <;> simp only [same, Bool.false_eq_true, Bool.and_eq_true, beq_iff_eq] at equal
      rw [equal.1.1, eq_of_same equal.1.2, eq_of_sameOption equal.2]
  | .stackedLimits _ _ _, other, equal => by
      cases other <;> simp only [same, Bool.false_eq_true, Bool.and_eq_true] at equal
      rw [eq_of_same equal.1.1, eq_of_same equal.1.2, eq_of_sameOption equal.2]
  | .brace _ _ _, other, equal => by
      cases other <;> simp only [same, Bool.false_eq_true, Bool.and_eq_true, beq_iff_eq] at equal
      rw [equal.1.1, eq_of_same equal.1.2, eq_of_same equal.2]

theorem eq_of_sameList : ∀ {trees others : List Tree}, sameList trees others = true → trees = others
  | [], others, equal => by
      have empty : others = [] := by simpa [sameList] using equal
      rw [empty]
  | _ :: _, others, equal => by
      cases others <;> simp only [sameList, Bool.false_eq_true, Bool.and_eq_true] at equal
      rw [eq_of_same equal.1, eq_of_sameList equal.2]

theorem eq_of_sameRows :
    ∀ {rows others : List (List Tree)}, sameRows rows others = true → rows = others
  | [], others, equal => by
      have empty : others = [] := by simpa [sameRows] using equal
      rw [empty]
  | _ :: _, others, equal => by
      cases others <;> simp only [sameRows, Bool.false_eq_true, Bool.and_eq_true] at equal
      rw [eq_of_sameList equal.1, eq_of_sameRows equal.2]

theorem eq_of_sameOption :
    ∀ {option other : Option Tree}, sameOption option other = true → option = other
  | none, other, equal => by
      have empty : other = none := by simpa [sameOption] using equal
      rw [empty]
  | some _, other, equal => by
      cases other <;> simp only [sameOption, Bool.false_eq_true] at equal
      rw [eq_of_same equal]

end

mutual

theorem same_refl : ∀ tree : Tree, same tree tree = true
  | .grid rows => by simp [same, sameRows_refl rows]
  | .row elements => by simp [same, sameList_refl elements]
  | .cluster elements => by simp [same, sameList_refl elements]
  | .bracketed _ _ contents => by simp [same, sameOption_refl contents]
  | .identifier _ => by simp [same]
  | .operator _ => by simp [same]
  | .text _ => by simp [same]
  | .number _ => by simp [same]
  | .fraction numerator denominator => by simp [same, same_refl numerator, same_refl denominator]
  | .scripted base subscript superscript => by
      simp [same, same_refl base, sameOption_refl subscript, sameOption_refl superscript]
  | .root radicand index => by simp [same, same_refl radicand, sameOption_refl index]
  | .limits _ lower upper => by simp [same, same_refl lower, sameOption_refl upper]
  | .stackedLimits base lower upper => by
      simp [same, same_refl base, same_refl lower, sameOption_refl upper]
  | .brace _ base comment => by simp [same, same_refl base, same_refl comment]

theorem sameList_refl : ∀ trees : List Tree, sameList trees trees = true
  | [] => by simp [sameList]
  | tree :: trees => by simp [sameList, same_refl tree, sameList_refl trees]

theorem sameRows_refl : ∀ rows : List (List Tree), sameRows rows rows = true
  | [] => by simp [sameRows]
  | cells :: rows => by simp [sameRows, sameList_refl cells, sameRows_refl rows]

theorem sameOption_refl : ∀ option : Option Tree, sameOption option option = true
  | none => by simp [sameOption]
  | some tree => by simp [sameOption, same_refl tree]

end

theorem same_iff {tree other : Tree} : same tree other = true ↔ tree = other :=
  ⟨eq_of_same, fun equal => equal ▸ same_refl tree⟩

instance : DecidableEq Tree := fun _ _ => decidable_of_iff _ same_iff

end PlainMath.Tree
