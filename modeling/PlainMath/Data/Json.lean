import PlainMath.Data.Datum
import PlainMath.Decimal.Radix

/-! Data as JSON text, one item or field on a line, two blanks for each level. -/
namespace PlainMath.Json

/-- Quotes, backslashes and control characters are written as escapes. -/
def escapeChar (c : Char) : List Char :=
  if c = '\x22' then ['\\', '\x22']
  else if c = '\\' then ['\\', '\\']
  else if c = '\x08' then ['\\', 'b']
  else if c = '\x0c' then ['\\', 'f']
  else if c = '\n' then ['\\', 'n']
  else if c = '\r' then ['\\', 'r']
  else if c = '\t' then ['\\', 't']
  else if c.toNat < 0x20 then
    ['\\', 'u', '0', '0', Radix.hexDigit (c.toNat / 16), Radix.hexDigit (c.toNat % 16)]
  else [c]

def quote (content : String) : String :=
  "\"" ++ String.ofList (content.toList.flatMap escapeChar) ++ "\""

def indentation (depth : Nat) : String := String.ofList (List.replicate (2 * depth) ' ')

/-- Parts between two brackets, each on a line of its own one level deeper. -/
def enclose (left right : String) (depth : Nat) (parts : List String) : String :=
  if parts.isEmpty then
    left ++ right
  else
    left ++ "\n" ++ ",\n".intercalate (parts.map (indentation (depth + 1) ++ ·)) ++ "\n" ++
      indentation depth ++ right

mutual

def text (depth : Nat) : Datum → String
  | .null => "null"
  | .text content => quote content
  | .list items => enclose "[" "]" depth (listTexts (depth + 1) items)
  | .record fields => enclose "\x7b" "\x7d" depth (fieldTexts (depth + 1) fields)

def listTexts (depth : Nat) : List Datum → List String
  | [] => []
  | item :: items => text depth item :: listTexts depth items

def fieldTexts (depth : Nat) : List (String × Datum) → List String
  | [] => []
  | (key, value) :: fields => (quote key ++ ": " ++ text depth value) :: fieldTexts depth fields

end

end PlainMath.Json
