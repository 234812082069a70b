import PlainMath.Proofs.Grammar.Parsed
import PlainMath.Tree.Equality

/-! Which right delimiter closes a bracket whose own closer is met. The grid inside stops in
front of that closer, but what is taken there is the first right delimiter of the table with
which the input goes on. A single angle or a single bar is the start of a double one, so it is
lost when the character behind it doubles it. -/
namespace PlainMath

namespace Bracket

def closerGlyph (bracket : Bracket) : String := (closers.lookup bracket.closer).getD ""

/-- What stands behind the closer makes the double delimiter of it. -/
def Doubles (bracket : Bracket) (behind : List Char) : Prop :=
  bracket.opener = "<" ∧ ['>'] <+: behind ∨ bracket.opener = "|:" ∧ ['|'] <+: behind

end Bracket

namespace Cursor
variable {cursor : Cursor} {bracket : Bracket} {behind : List Char}

theorem close?_of_closer (listed : bracket ∈ Bracket.all)
    (here : cursor.rest = bracket.closer.toList ++ behind) (single : ¬ bracket.Doubles behind) :
    cursor.close? =
      some (bracket.closerGlyph, cursor.advance bracket.closer.toList.length) := by
  simp only [Bracket.all, List.mem_cons, List.not_mem_nil, or_false] at listed
  rcases listed with rfl | rfl | rfl | rfl | rfl | rfl | rfl | rfl
  all_goals
    cases behind <;>
      simp_all [close?, Bracket.closers, Bracket.closerGlyph, Bracket.Doubles, eat?, startsWith,
        List.lookup_cons]

theorem close?_of_doubles (listed : bracket ∈ Bracket.all)
    (here : cursor.rest = bracket.closer.toList ++ behind) (doubles : bracket.Doubles behind) :
    ∃ glyph, glyph ≠ bracket.closerGlyph ∧
      cursor.close? = some (glyph, cursor.advance (bracket.closer.toList.length + 1)) := by
  have angles : ∀ bracket ∈ Bracket.all, bracket.opener = "<" →
      bracket.closer = ">" ∧ bracket.closerGlyph = "&rang;" := by decide
  have bars : ∀ bracket ∈ Bracket.all, bracket.opener = "|:" →
      bracket.closer = ":|" ∧ bracket.closerGlyph = "&mid;" := by decide
  rcases doubles with ⟨single, more, rfl⟩ | ⟨single, more, rfl⟩
  · obtain ⟨closer, glyph⟩ := angles bracket listed single
    rw [closer] at here
    refine ⟨"&rAng;", by simp [glyph], ?_⟩
    simp [close?, Bracket.closers, eat?, startsWith, here, closer]
  · obtain ⟨closer, glyph⟩ := bars bracket listed single
    rw [closer] at here
    refine ⟨"&par;", by simp [glyph], ?_⟩
    simp [close?, Bracket.closers, eat?, startsWith, here, closer]

end Cursor

namespace Grammar

/-- A bracket whose own closer is met takes just this closer, unless what stands behind doubles
it. Then it takes the double delimiter. This holds in any state of reading. -/
theorem bracketed?_takes_own_closer_iff (depth : Nat) {cursor inside : Cursor} {bracket : Bracket}
    {behind : List Char} (opened : cursor.open? = some (bracket, inside))
    (met : (grid (brackets depth) ((inside.awaiting bracket.closer).expecting true)).2.rest =
      bracket.closer.toList ++ behind) :
    ∃ right contents after, bracketed? (brackets depth) cursor =
        some (.bracketed bracket.glyph right contents, after) ∧
      (right = bracket.closerGlyph ∧ after.rest = behind ↔ ¬ bracket.Doubles behind) ∧
      (bracket.Doubles behind → right ≠ bracket.closerGlyph ∧ after.rest = behind.tail) := by
  have listed := open?_mem opened
  generalize inner : grid (brackets depth) ((inside.awaiting bracket.closer).expecting true) =
    found at met
  refine ⟨_, _, _, by rw [bracketed?, opened]; rfl, ?_⟩
  simp only [inner, closing]
  by_cases doubles : bracket.Doubles behind
  · obtain ⟨glyph, other, closed⟩ := Cursor.close?_of_doubles listed met doubles
    have left : found.2.rest.drop (bracket.closer.toList.length + 1) = behind.tail := by
      rw [met, ← List.drop_drop, List.drop_left, List.drop_one]
    simp [closed, other, doubles, left]
  · have closed := Cursor.close?_of_closer listed met doubles
    have left : found.2.rest.drop bracket.closer.toList.length = behind := by
      rw [met, List.drop_left]
    simp [closed, doubles, left]

theorem bracketed?_takes_single_bar :
    let cursor := Cursor.start "|:a:|+b".toList
    let inside : Cursor := ⟨"a:|+b".toList, true, ":|"⟩
    cursor.open?.map (·.1.closer) = some ":|" ∧ (grid (brackets 6) inside).2.rest = ":|+b".toList ∧
      ∃ contents after, bracketed? (brackets 6) cursor =
        some (.bracketed "&mid;" "&mid;" contents, after) ∧ after.rest = "+b".toList := by
  intro cursor inside
  have opened : cursor.open? = some (⟨"|:", ":|", "&mid;", false⟩, inside.awaiting "") := by
    decide +kernel
  have met : (grid (brackets 6) inside).2.rest = ":|".toList ++ "+b".toList := by decide +kernel
  obtain ⟨right, contents, after, found, own, _⟩ := bracketed?_takes_own_closer_iff 6 opened met
  obtain ⟨rfl, left⟩ := own.mpr (by simp [Bracket.Doubles])
  exact ⟨by rw [opened]; rfl, met, contents, after, found, left⟩

theorem adjacent_bars_lose_closer :
    (grid (brackets 9) ⟨"a:||:b:|".toList, true, ":|"⟩).2.rest = ":||:b:|".toList ∧
      parse "|:a:||:b:|" = .cluster [.bracketed "&mid;" "&par;" (some (.identifier "a")),
        .operator "&af;", .identifier "b", .operator "&af;", .operator "&mid;"] := by
  decide +kernel

end Grammar
end PlainMath
