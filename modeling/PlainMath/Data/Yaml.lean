import PlainMath.Data.Datum
import PlainMath.Decimal.Binary
import PlainMath.Decimal.Radix

/-! Data as YAML text in block style. Fields are indented by two blanks, the
dashes of a list stand under the key of the list, and a text is quoted only where
it would be read as something else. -/
namespace PlainMath.Yaml

/-- A whole number in base ten, or in another base behind its mark. -/
def natural? : List Char → Option Nat
  | '0' :: 'x' :: rest => Radix.digits? 16 rest
  | '0' :: 'o' :: rest => Radix.digits? 8 rest
  | '0' :: 'b' :: rest => Radix.digits? 2 rest
  | text => Radix.digits? 10 text

def isInteger (text : List Char) : Bool :=
  let signed := Decimal.sign text
  let limit := if signed.1 then Nat.pow 2 127 + 1 else Nat.pow 2 128
  (natural? signed.2).any (· < limit)

/-- Several digits with a zero in front, which some readers take for a number. -/
def isPaddedNumber (text : List Char) : Bool :=
  match (Decimal.sign text).2 with
  | '0' :: rest => rest ≠ [] && rest.all Char.isDigit
  | _ => false

def isInfinity (text : List Char) : Bool :=
  ["inf", "Inf", "INF"].any fun word => (Decimal.sign text).2 = '.' :: word.toList

def isFiniteNumber (text : List Char) : Bool :=
  (Decimal.read? text).any (·.nearest.isFinite)

/-- Texts that stand for a value of another type when they are not quoted. -/
def isReserved (content : String) : Bool :=
  let text := content.toList
  ["", "null", "Null", "NULL", "~", "true", "True", "TRUE", "false", "False", "FALSE",
    ".nan", ".NaN", ".NAN"].contains content ||
      isInteger text || isPaddedNumber text || isInfinity text || isFiniteNumber text

def isPrintable (c : Char) : Bool :=
  let n := c.toNat
  (0x20 ≤ n && n ≤ 0x7E) || (0xA0 ≤ n && n ≠ 0xFEFF && n ≠ 0xFFFE && n ≠ 0xFFFF)

def isBreak (c : Char) : Bool := c.toNat = 0x2028 || c.toNat = 0x2029

/-- A blank next to the end of a line, where a reader would lose it. -/
def hasEdgeBlank : List Char → Bool
  | c :: next :: rest =>
    (c = ' ' && isBreak next) || (isBreak c && next = ' ') || hasEdgeBlank (next :: rest)
  | _ => false

/-- A colon in front of a blank or the end, or a number sign behind a blank. -/
def hasMark : List Char → Bool
  | [] => false
  | [c] => c = ':'
  | c :: next :: rest =>
    (c = ':' && next = ' ') || (c = ' ' && next = '#') || hasMark (next :: rest)

def isIndicator (c : Char) : Bool :=
  "#,[]\x7b\x7d&*!|>'\"%@`".toList.contains c

def hasIndicator (content : String) : Bool :=
  let text := content.toList
  text.head? = some ' ' || text.getLast? = some ' ' ||
    "---".toList.isPrefixOf text || "...".toList.isPrefixOf text || text.head?.any isIndicator ||
    (text.head?.any (fun c => c = '-' || c = '?' || c = ':') &&
      (text.tail.head? = none || text.tail.head? = some ' ')) ||
    hasMark text

/-- The inside of a text in single quotes. Lines after the first one start behind a margin. -/
def singleQuoted (margin : Nat) : Bool → List Char → List Char
  | afterBreak, [] => if afterBreak then List.replicate margin ' ' else []
  | afterBreak, c :: rest =>
    if isBreak c then
      c :: singleQuoted margin true rest
    else
      (if afterBreak then List.replicate margin ' ' else []) ++
        (if c = '\x27' then [c, c] else [c]) ++ singleQuoted margin false rest

def singleQuote (margin : Nat) (content : String) : String :=
  "'" ++ String.ofList (singleQuoted margin false content.toList) ++ "'"

def upperHex (width value : Nat) : List Char :=
  (List.range width).reverse.map fun place =>
    (Radix.hexDigit (value / Nat.pow 16 place % 16)).toUpper

def escapeLetters : List (Nat × Char) :=
  [ (0x00, '0'), (0x07, 'a'), (0x08, 'b'), (0x09, 't'), (0x0A, 'n'), (0x0B, 'v'), (0x0C, 'f'),
    (0x0D, 'r'), (0x1B, 'e'), (0x22, '\x22'), (0x5C, '\\'), (0x85, 'N'), (0x2028, 'L'),
    (0x2029, 'P') ]

/-- Inside double quotes everything that is not printable is written as an escape. -/
def escapeChar (c : Char) : List Char :=
  match escapeLetters.lookup c.toNat with
  | some letter => ['\\', letter]
  | none =>
    if isPrintable c then [c]
    else if c.toNat ≤ 0xFF then '\\' :: 'x' :: upperHex 2 c.toNat
    else '\\' :: 'u' :: upperHex 4 c.toNat

def doubleQuote (content : String) : String :=
  "\"" ++ String.ofList (content.toList.flatMap escapeChar) ++ "\""

/-- A text as the value of a key in a given column. -/
def scalar (column : Nat) (content : String) : String :=
  let text := content.toList
  if isReserved content then singleQuote (column + 2) content
  else if !text.all isPrintable || hasEdgeBlank text then doubleQuote content
  else if hasIndicator content || text.any isBreak then singleQuote (column + 2) content
  else content

def indent (lines : List String) : List String := lines.map ("  " ++ ·)

/-- The lines of an item of a list: a dash in front of the first one. -/
def dashed : List String → List String
  | [] => []
  | first :: rest => ("- " ++ first) :: indent rest

mutual

/-- The lines of a datum whose keys stand in a given column. The column counts where
a text has lines of its own. -/
def lines (column : Nat) : Datum → List String
  | .null => ["null"]
  | .text content => [scalar column content]
  | .list items => if items.isEmpty then ["[]"] else listLines column items
  | .record fields => if fields.isEmpty then ["\x7b\x7d"] else fieldLines column fields

def listLines (column : Nat) : List Datum → List String
  | [] => []
  | item :: items => dashed (lines (column + 2) item) ++ listLines column items

def fieldLines (column : Nat) : List (String × Datum) → List String
  | [] => []
  | (key, value) :: fields =>
    valueLines column (scalar column key) value ++ fieldLines column fields

/-- A field: short values stand beside the key, others start on the next line. -/
def valueLines (column : Nat) (key : String) : Datum → List String
  | .null => [key ++ ": null"]
  | .text content => [key ++ ": " ++ scalar column content]
  | .list items =>
    if items.isEmpty then [key ++ ": []"] else (key ++ ":") :: listLines column items
  | .record fields =>
    if fields.isEmpty then [key ++ ": \x7b\x7d"]
    else (key ++ ":") :: indent (fieldLines (column + 2) fields)

end

def text (datum : Datum) : String := String.join ((lines 0 datum).map (· ++ "\n"))

end PlainMath.Yaml
