/-! A dictionary from spellings to glyphs. Spellings made of letters only are
words, looked up by a whole run of letters; all others are signs, looked up by
the longest one that the input starts with. -/
namespace PlainMath.Symbol

def isLetter (c : Char) : Bool := c.isAlpha

structure Table where
  words : List (List Char × String)
  signs : List (List Char × String)

namespace Table

def ofEntries (entries : List (String × String)) : Table :=
  let spelled := entries.map fun entry => (entry.1.toList, entry.2)
  { words := spelled.filter fun entry => entry.1.all isLetter
    signs := spelled.filter fun entry => !entry.1.all isLetter }

/-- The glyph of a word; a later entry of the same word wins. -/
def word? (table : Table) (word : List Char) : Option String :=
  table.words.foldl (fun found entry => if entry.1 = word then some entry.2 else found) none

/-- Keeps the longer of two matching signs, the later one of two equally long. -/
def longer (input : List Char) (best : Option (String × Nat)) (entry : List Char × String) :
    Option (String × Nat) :=
  if entry.1.isPrefixOf input && (best.elim 0 (·.2)) ≤ entry.1.length then
    some (entry.2, entry.1.length)
  else
    best

/-- The glyph and the length of the longest sign that `input` starts with. -/
def longestSign? (table : Table) (input : List Char) : Option (String × Nat) :=
  table.signs.foldl (longer input) none

def maxSignLength (table : Table) : Nat :=
  table.signs.foldl (fun most entry => max most entry.1.length) 0

theorem longer_bound {input : List Char} {best : Option (String × Nat)}
    {entry : List Char × String} {glyph : String} {length : Nat}
    (letters : entry.1 ≠ []) (bounded : ∀ g n, best = some (g, n) → 0 < n ∧ n ≤ input.length)
    (found : longer input best entry = some (glyph, length)) :
    0 < length ∧ length ≤ input.length := by
  unfold longer at found
  split at found
  · rename_i taken
    cases found
    simp only [Bool.and_eq_true, List.isPrefixOf_iff_prefix] at taken
    exact ⟨List.length_pos_iff.mpr letters, taken.1.length_le⟩
  · exact bounded _ _ found

theorem foldl_longer_bound {input : List Char} (entries : List (List Char × String))
    (best : Option (String × Nat)) (spelled : ∀ entry ∈ entries, entry.1 ≠ [])
    (bounded : ∀ g n, best = some (g, n) → 0 < n ∧ n ≤ input.length)
    {glyph : String} {length : Nat}
    (found : entries.foldl (longer input) best = some (glyph, length)) :
    0 < length ∧ length ≤ input.length := by
  induction entries generalizing best with
  | nil => exact bounded _ _ found
  | cons entry entries ih =>
    refine ih (longer input best entry) (fun e member => spelled e (by simp [member])) ?_ found
    intro g n taken
    exact longer_bound (spelled entry (by simp)) bounded taken

theorem signs_ofEntries_ne_nil {entries : List (String × String)} {sign : List Char × String}
    (member : sign ∈ (ofEntries entries).signs) : sign.1 ≠ [] := by
  intro empty
  simp [ofEntries, empty] at member

theorem longestSign?_ofEntries_bound {entries : List (String × String)} {input : List Char}
    {glyph : String} {length : Nat}
    (found : (ofEntries entries).longestSign? input = some (glyph, length)) :
    0 < length ∧ length ≤ input.length :=
  foldl_longer_bound _ none (fun _ member => signs_ofEntries_ne_nil member) (by simp) found

end Table
end PlainMath.Symbol
