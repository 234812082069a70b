import PlainMath.Cursor.Basic

/-! Brackets: which spellings open one, which close one, and when the cursor
stands in front of the closer that the innermost open bracket waits for. -/
namespace PlainMath

structure Bracket where
  opener : String
  closer : String
  /-- what is drawn for the opener -/
  glyph : String
  /-- opens only where a term is expected; elsewhere it is a comparison -/
  termOnly : Bool := false
deriving DecidableEq, Repr

namespace Bracket

/-- Left delimiters in the order in which they are tried: a spelling stands
before those that it starts with. -/
def all : List Bracket :=
  [ { opener := "(", closer := ")", glyph := "(" },
    { opener := "[", closer := "]", glyph := "[" },
    { opener := "\x7b", closer := "\x7d", glyph := "\x7b" },
    { opener := "|_", closer := "_|", glyph := "&lfloor;" },
    { opener := "<<", closer := ">>", glyph := "&lAng;", termOnly := true },
    { opener := "<", closer := ">", glyph := "&lang;", termOnly := true },
    { opener := "||:", closer := ":||", glyph := "&par;" },
    { opener := "|:", closer := ":|", glyph := "&mid;" } ]

/-- Right delimiters and what is drawn for them, in the order in which they are
tried. Any of them closes any bracket. -/
def closers : List (String × String) :=
  [ (")", ")"), ("]", "]"), ("\x7d", "\x7d"), ("_|", "&rfloor;"), (">>", "&rAng;"),
    (">", "&rang;"), (":||", "&par;"), (":|", "&mid;") ]

end Bracket

namespace Cursor

def open? (cursor : Cursor) : Option (Bracket × Cursor) :=
  Bracket.all.findSome? fun bracket =>
    if cursor.expectTerm || !bracket.termOnly then
      (cursor.eat? bracket.opener).map (bracket, ·)
    else
      none

/-- The glyph of the right delimiter at the cursor, awaited or not, and the
cursor behind it. -/
def close? (cursor : Cursor) : Option (String × Cursor) :=
  Bracket.closers.findSome? fun closer => (cursor.eat? closer.1).map (closer.2, ·)

/-- In front of the awaited closer. A round and a square closer stand in for
each other, so that half-open intervals close. -/
def atCloser (cursor : Cursor) : Bool :=
  if cursor.closer = ")" ∨ cursor.closer = "]" then
    cursor.startsWith ")" || cursor.startsWith "]"
  else
    cursor.startsWith cursor.closer

theorem open?_shorter {cursor after : Cursor} {bracket : Bracket}
    (opened : cursor.open? = some (bracket, after)) :
    after.rest.length < cursor.rest.length := by
  obtain ⟨candidate, _, found⟩ := List.exists_of_findSome?_eq_some opened
  split at found
  · obtain ⟨eaten, ate, same⟩ := Option.map_eq_some_iff.mp found
    cases same
    exact eat?_shorter ate
  · cases found

theorem close?_shorter {cursor after : Cursor} {glyph : String}
    (closed : cursor.close? = some (glyph, after)) :
    after.rest.length < cursor.rest.length := by
  obtain ⟨candidate, _, found⟩ := List.exists_of_findSome?_eq_some closed
  obtain ⟨eaten, ate, same⟩ := Option.map_eq_some_iff.mp found
  cases same
  exact eat?_shorter ate

end Cursor
end PlainMath
