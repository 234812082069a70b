/-! Readers take something off the front of a text, or refuse it. -/
namespace PlainMath.Toml

abbrev Reader (α : Type) := StateT (List Char) Option α

namespace Reader

variable {α β : Type}

def charIf (accepts : Char → Bool) : Reader Char
  | [] => none
  | c :: rest => if accepts c then some (c, rest) else none

def charsWhile (accepts : Char → Bool) : Reader (List Char) := fun text =>
  some (text.takeWhile accepts, text.dropWhile accepts)

def word (expected : String) : Reader Unit := fun text =>
  if expected.toList.isPrefixOf text then some ((), text.drop expected.length) else none

def atEnd : Reader Unit := fun text => if text = [] then some ((), text) else none

/-- Repeats a reader until it refuses or takes nothing. -/
def gather (item : Reader α) (text : List Char) : List α × List Char :=
  match item text with
  | none => ([], text)
  | some (first, rest) =>
    if rest.length < text.length then
      let more := gather item rest
      (first :: more.1, more.2)
    else
      ([first], rest)
termination_by text.length

def many (item : Reader α) : Reader (List α) := fun text => some (gather item text)

/-- At least one item, with a separator between neighbours. -/
def separated (item : Reader α) (separator : Reader β) : Reader (List α) := do
  let first ← item
  let more ← many (separator *> item)
  return first :: more

def filter (accepts : α → Bool) (item : Reader α) : Reader α := do
  let value ← item
  if accepts value then return value else failure

end Reader
end PlainMath.Toml
