import PlainMath.Decimal.Shortest
import PlainMath.Text.LowerCase

/-! Values of settings before they are converted to the types that they should
have. Each value knows the file from which it comes, if any. -/
namespace PlainMath.Settings

inductive Scalar where
  | missing
  | boolean (value : Bool)
  | integer (value : Int)
  | floating (value : Binary64)
  | text (value : String)
deriving DecidableEq, Repr

inductive Value where
  | scalar (origin : Option String) (content : Scalar)
  | table (origin : Option String) (entries : List (String × Value))
  | array (origin : Option String) (items : List Value)

namespace Value

def missing : Value := .scalar none .missing

def emptyTable : Value := .table none []

def origin : Value → Option String
  | .scalar origin _ => origin
  | .table origin _ => origin
  | .array origin _ => origin

/-- The entries of a table under one key. -/
def get? (key : String) : List (String × Value) → Option Value
  | [] => none
  | (own, value) :: entries => if own = key then some value else get? key entries

def alterEntries (key : String) (change : Option Value → Value) :
    List (String × Value) → List (String × Value)
  | [] => [(key, change none)]
  | (own, value) :: entries =>
    if own = key then (key, change (some value)) :: entries
    else (own, value) :: alterEntries key change entries

/-- Changes the value under a key, whatever the case of its letters. What is not
a table becomes one. -/
def alter (key : String) (change : Option Value → Value) : Value → Value
  | .table origin entries => .table origin (alterEntries (Text.lower key) change entries)
  | _ => .table none (alterEntries (Text.lower key) change [])

/-- A place of an array; negative places count from the end. -/
def place (index : Int) (length : Nat) : Nat :=
  if 0 ≤ index then index.toNat else length - (-index).toNat

/-- Changes the value at a place, after missing values have filled the array up to
it. What is not an array becomes one. -/
def alterAt (index : Int) (change : Option Value → Value) (value : Value) : Value :=
  let items := match value with
    | .array _ items => items
    | _ => []
  let origin := match value with
    | .array origin _ => origin
    | _ => none
  let position := place index items.length
  let filled := items ++ List.replicate (position + 1 - items.length) missing
  .array origin (filled.modify position fun item => change (some item))

mutual

/-- A new value in the place of an old one. Tables are merged entry by entry,
anything else is replaced. -/
def merge : Value → Option Value → Value
  | .table _ entries, old => mergeEntries entries (old.getD emptyTable)
  | .scalar origin content, _ => .scalar origin content
  | .array origin items, _ => .array origin items

def mergeEntries : List (String × Value) → Value → Value
  | [], target => target
  | (key, value) :: entries, target => mergeEntries entries (target.alter key (merge value))

end

end Value
end PlainMath.Settings
