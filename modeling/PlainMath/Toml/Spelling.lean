import PlainMath.Decimal.Radix
import PlainMath.Toml.Reader

/-! Blanks, comments, strings and keys. -/
namespace PlainMath.Toml
open Reader

/-- Characters that may stand nowhere in a line, not even in a comment. -/
def isControl (c : Char) : Bool := (c.toNat < 0x20 && c ≠ '\t') || c.toNat = 0x7F

def isBlank (c : Char) : Bool := c = ' ' || c = '\t'

def blanks : Reader Unit := discard (charsWhile isBlank)

/-- A carriage return belongs to the line feed behind it. -/
def newline : Reader Unit := word "\n" <|> word "\r\n"

def comment : Reader Unit := word "#" *> discard (charsWhile (!isControl ·))

def lineEnd : Reader Unit := do
  blanks
  discard (optional comment)
  newline <|> atEnd

/-- Blanks, comments and line ends, where they do not matter. -/
def gap : Reader Unit :=
  discard (many (discard (charIf isBlank) <|> (discard (optional comment) *> newline)))

def codePoint (count : Nat) : Reader Char := fun text => do
  let digits := text.take count
  let value ← Radix.digits? 16 digits
  if digits.length = count ∧ value.isValidChar then some (Char.ofNat value, text.drop count)
  else none

/-- What stands behind a backslash. -/
def escape : Reader Char
  | 'b' :: rest => some ('\x08', rest)
  | 't' :: rest => some ('\t', rest)
  | 'n' :: rest => some ('\n', rest)
  | 'f' :: rest => some ('\x0c', rest)
  | 'r' :: rest => some ('\r', rest)
  | '\x22' :: rest => some ('\x22', rest)
  | '\\' :: rest => some ('\\', rest)
  | 'u' :: rest => codePoint 4 rest
  | 'U' :: rest => codePoint 8 rest
  | _ => none

def basicChar : Reader Char :=
  (word "\\" *> escape) <|> charIf fun c => c ≠ '\x22' && c ≠ '\\' && !isControl c

def literalChar : Reader Char := charIf fun c => c ≠ '\x27' && !isControl c

def basicString : Reader (List Char) := word "\"" *> many basicChar <* word "\""

def literalString : Reader (List Char) := word "'" *> many literalChar <* word "'"

/-- A string over several lines between three quotes each. Up to two quotes may
stand inside, also right in front of the closing ones. A line end right behind the
opening quotes does not count. -/
def block (quote : Char) (piece : Reader (List Char)) : Reader (List Char) := do
  let quotes := charsWhile (· = quote)
  word (String.ofList [quote, quote, quote])
  discard (optional newline)
  let inner := quotes.filter fun run => run.length = 1 || run.length = 2
  let pieces ← many (piece <|> inner)
  let closing ← quotes.filter fun run => 3 ≤ run.length && run.length ≤ 5
  return pieces.flatten ++ closing.drop 3

def innerLineEnd : Reader (List Char) := newline *> pure ['\n']

/-- A backslash at the end of a line joins it with the next text. -/
def joinedLines : Reader (List Char) := do
  word "\\"
  blanks
  newline
  discard (many (discard (charIf isBlank) <|> newline))
  return []

def single (char : Reader Char) : Reader (List Char) := List.singleton <$> char

def string : Reader String := String.ofList <$>
  (block '\x22' (joinedLines <|> single basicChar <|> innerLineEnd) <|> basicString <|>
    block '\x27' (single literalChar <|> innerLineEnd) <|> literalString)

def isBareKeyChar (c : Char) : Bool := c.isAlphanum || c = '_' || c = '-'

def keyPart : Reader String := String.ofList <$>
  (basicString <|> literalString <|> (charsWhile isBareKeyChar).filter (· ≠ []))

/-- Keys have fewer parts, and arrays and tables lie less deep in each other. -/
def depthBound : Nat := 80

def key : Reader (List String) :=
  (separated (blanks *> keyPart <* blanks) (word ".")).filter fun parts =>
    parts.length < depthBound

end PlainMath.Toml
