/-! Where reading stands: the characters that are left, and the two facts about
what came before on which the reading of the next characters depends. -/
namespace PlainMath

structure Cursor where
  /-- what is left to read -/
  rest : List Char
  /-- true at the start and after an operator that needs a term, false after a complete term -/
  expectTerm : Bool
  /-- the closer of the innermost open bracket, empty outside of brackets -/
  closer : String
deriving DecidableEq, Repr

namespace Cursor

def start (source : List Char) : Cursor := ⟨source, true, ""⟩

def advance (cursor : Cursor) (count : Nat) : Cursor :=
  { cursor with rest := cursor.rest.drop count }

/-- Moves to a position of the source from which the cursor was started, at most to the end. -/
def seek (cursor : Cursor) (source : List Char) (position : Nat) : Cursor :=
  { cursor with rest := source.drop position }

def position (cursor : Cursor) (source : List Char) : Nat :=
  source.length - cursor.rest.length

def expecting (cursor : Cursor) (term : Bool) : Cursor := { cursor with expectTerm := term }

def awaiting (cursor : Cursor) (closer : String) : Cursor := { cursor with closer }

def atEnd (cursor : Cursor) : Bool := cursor.rest.isEmpty

def peekAt (cursor : Cursor) (offset : Nat) : Option Char := cursor.rest[offset]?

def peek (cursor : Cursor) : Option Char := cursor.peekAt 0

/-- Whether the input goes on with `text`; never with the empty text. -/
def startsWith (cursor : Cursor) (text : String) : Bool :=
  text ≠ "" && text.toList.isPrefixOf cursor.rest

/-- Steps over `text` if the input goes on with it. -/
def eat? (cursor : Cursor) (text : String) : Option Cursor :=
  if cursor.startsWith text then some (cursor.advance text.toList.length) else none

@[simp] theorem rest_expecting (cursor : Cursor) (term : Bool) :
    (cursor.expecting term).rest = cursor.rest := rfl

@[simp] theorem rest_awaiting (cursor : Cursor) (closer : String) :
    (cursor.awaiting closer).rest = cursor.rest := rfl

@[simp] theorem rest_advance (cursor : Cursor) (count : Nat) :
    (cursor.advance count).rest = cursor.rest.drop count := rfl

theorem advance_shorter {cursor : Cursor} {count : Nat} (pos : 0 < count)
    (more : cursor.rest ≠ []) :
    (cursor.advance count).rest.length < cursor.rest.length := by
  have := List.length_pos_iff.mpr more
  simp only [rest_advance, List.length_drop]
  omega

theorem startsWith_iff {cursor : Cursor} {text : String} :
    cursor.startsWith text = true ↔ text ≠ "" ∧ text.toList <+: cursor.rest := by
  simp [startsWith]

theorem eat?_shorter {cursor after : Cursor} {text : String}
    (eaten : cursor.eat? text = some after) : after.rest.length < cursor.rest.length := by
  unfold eat? at eaten
  split at eaten
  · rename_i starts
    cases eaten
    obtain ⟨nonempty, leading⟩ := startsWith_iff.mp starts
    have spelled : text.toList ≠ [] := by simpa using nonempty
    have room := leading.length_le
    have pos := List.length_pos_iff.mpr spelled
    exact advance_shorter pos (fun ended => by simp [ended] at room; simp [room] at pos)
  · cases eaten

end Cursor
end PlainMath
