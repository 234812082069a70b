import PlainMath.Settings.Value

/-! Paths to a setting, such as `output.indent` or `list[2]`. -/
namespace PlainMath.Settings

inductive PathStep where
  | child (key : String)
  | index (index : Int)
deriving DecidableEq, Repr

structure Path where
  root : String
  steps : List PathStep
deriving DecidableEq, Repr

namespace Path

def isKeyChar (c : Char) : Bool := c.isAlphanum || c = '_' || c = '-' || c = ' '

def key? (text : List Char) : Option (String × List Char) :=
  let key := text.takeWhile isKeyChar
  if key = [] then none else some (String.ofList key, text.dropWhile isKeyChar)

def skipBlanks (text : List Char) : List Char := text.dropWhile fun c => c = ' ' || c = '\t'

def minus : List Char → Bool × List Char
  | '-' :: rest => (true, rest)
  | rest => (false, rest)

/-- The number that digits spell, if there are any and it fits into 64 bits. -/
def number? (negative : Bool) (digits : List Char) : Option Int :=
  let value : Int := Decimal.digitsValue digits
  let signed := if negative then -value else value
  if digits ≠ [] ∧ -(Int.pow 2 63) ≤ signed ∧ signed < Int.pow 2 63 then some signed else none

/-- A whole number between blanks and in front of a closing bracket. -/
def index? (text : List Char) : Option (Int × List Char) :=
  let signed := minus (skipBlanks text)
  match skipBlanks (signed.2.dropWhile Char.isDigit) with
  | ']' :: rest => (number? signed.1 (signed.2.takeWhile Char.isDigit)).map (·, rest)
  | _ => none

theorem key?_le {text rest : List Char} {key : String} (found : key? text = some (key, rest)) :
    rest.length ≤ text.length := by
  unfold key? at found
  dsimp only at found
  split at found
  · cases found
  · cases found
    exact (List.dropWhile_suffix isKeyChar).length_le

theorem skipBlanks_le (text : List Char) : (skipBlanks text).length ≤ text.length :=
  (List.dropWhile_suffix _).length_le

theorem minus_le (text : List Char) : (minus text).2.length ≤ text.length := by
  unfold minus
  split <;> simp

theorem index?_le {text rest : List Char} {index : Int} (found : index? text = some (index, rest)) :
    rest.length ≤ text.length := by
  unfold index? at found
  dsimp only at found
  split at found
  · rename_i behind closed
    obtain ⟨_, _, same⟩ := Option.map_eq_some_iff.mp found
    cases same
    have first := skipBlanks_le text
    have second := minus_le (skipBlanks text)
    have third := (List.dropWhile_suffix (l := (minus (skipBlanks text)).2) Char.isDigit).length_le
    have fourth := skipBlanks_le ((minus (skipBlanks text)).2.dropWhile Char.isDigit)
    rw [closed, List.length_cons] at fourth
    omega
  · cases found

/-- Further keys and indices up to the end of the text. -/
def steps? (text : List Char) : Option (List PathStep) :=
  match text with
  | [] => some []
  | '.' :: rest =>
    match found : key? rest with
    | none => none
    | some (key, behind) =>
      have := key?_le found
      (steps? behind).map (.child key :: ·)
  | '[' :: rest =>
    match found : index? rest with
    | none => none
    | some (index, behind) =>
      have := index?_le found
      (steps? behind).map (.index index :: ·)
  | _ => none
termination_by text.length
decreasing_by all_goals simp only [List.length_cons]; omega

/-- A key, then further keys behind points and indices in brackets. -/
def ofText? (text : String) : Option Path := do
  let (root, rest) ← key? text.toList
  let steps ← steps? rest
  return ⟨root, steps⟩

end Path

namespace Value

/-- Puts a value at the end of a path. What is in the way of the path is replaced,
and so is an item of an array at its end. -/
def put (value : Value) : List PathStep → Option Value → Value
  | [], old => merge value old
  | [.index index], old => (old.getD missing).alterAt index fun _ => value
  | .child key :: steps, old => (old.getD missing).alter key (put value steps)
  | .index index :: steps, old => (old.getD missing).alterAt index (put value steps)

def set (settings : Value) (path : Path) (value : Value) : Value :=
  settings.alter path.root (put value path.steps)

/-- Lays a table over the settings. Its keys are paths if they can be read as such. -/
def layer (settings : Value) (entries : List (String × Value)) : Value :=
  entries.foldl (fun settings entry =>
    match Path.ofText? entry.1 with
    | some path => settings.set path entry.2
    | none => settings.alter entry.1 (merge entry.2)) settings

end Value
end PlainMath.Settings
