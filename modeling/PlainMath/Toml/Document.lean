import PlainMath.Toml.Moment
import PlainMath.Toml.Number
import PlainMath.Toml.Spelling
import PlainMath.Toml.Value

/-! A document is a sequence of lines: comments, headers of tables, and keys with a
value each. -/
namespace PlainMath.Toml
open Reader

def isTokenChar (c : Char) : Bool := c.isAlphanum || c = '_' || c = '+' || c = '-' || c = '.'

def ofToken? (token : List Char) : Option Value :=
  if token = "true".toList then some (.boolean true)
  else if token = "false".toList then some (.boolean false)
  else ((integer? token).map Value.integer).or ((floating? token).map Value.floating)

def token : Reader Value := fun text =>
  (ofToken? (text.takeWhile isTokenChar)).map (·, text.dropWhile isTokenChar)

def scalar : Reader Value := (.text <$> string) <|> (.text <$> moment) <|> token

/-- Values between brackets, perhaps with a comma behind the last one. -/
def array (item : Reader Value) : Reader Value := do
  word "["
  let items ← optional (separated (gap *> item <* gap) (word ",") <* optional (word ","))
  gap
  word "]"
  return .array (items.getD [])

def entry (item : Reader Value) : Reader (List String × Value) := do
  let key ← key
  word "="
  blanks
  let value ← item
  return (key, value)

def inlineTable (item : Reader Value) : Reader Value := do
  word "\x7b"
  let entries ← optional (separated (entry item <* blanks) (word ","))
  blanks
  word "\x7d"
  let table ← (entries.getD []).foldlM (fun table entry => Entries.assign? entry.2 entry.1 table) []
  return .table (values table)

/-- A value in which arrays and tables lie so deep in each other at most. -/
def value : Nat → Reader Value
  | 0 => scalar
  | depth + 1 => scalar <|> array (value depth) <|> inlineTable (value depth)

inductive Line where
  | empty
  | header (key : List String)
  /-- the header of one of several tables -/
  | item (key : List String)
  | entry (key : List String) (value : Value)

def line : Reader Line := do
  blanks
  let line ← (.item <$> (word "[[" *> key <* word "]]")) <|>
    (.header <$> (word "[" *> key <* word "]")) <|>
    ((fun found => .entry found.1 found.2) <$> entry (value (depthBound - 1))) <|>
    pure .empty
  lineEnd
  return line

/-- The tables so far and the key of the current one. -/
structure Document where
  entries : Entries
  current : List String

def Document.add? (document : Document) : Line → Option Document
  | .empty => some document
  | .header key => (document.entries.open? key).map (⟨·, key⟩)
  | .item key => (document.entries.append? key).map (⟨·, key⟩)
  | .entry key value =>
    (document.entries.within? (Entries.assign? value key) document.current).map
      (⟨·, document.current⟩)

/-- A text without the mark of the byte order with which it may start. -/
def dropByteOrderMark : List Char → List Char
  | [] => []
  | c :: text => if c.toNat = 0xFEFF then text else c :: text

def read? (text : List Char) : Option (List (String × Value)) := do
  let (lines, _) ← (many line <* atEnd) (dropByteOrderMark text)
  let document ← lines.foldlM Document.add? ⟨[], []⟩
  return values document.entries

end PlainMath.Toml
