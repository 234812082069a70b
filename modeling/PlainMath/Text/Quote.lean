import PlainMath.Text.Hidden

/-! Text in double quotes, as it is shown in messages. -/
namespace PlainMath.Text

def codeEscape (c : Char) : List Char :=
  "\\u\x7b".toList ++ Nat.toDigits 16 c.toNat ++ ['\x7d']

def quoteChar (c : Char) : List Char :=
  if c = '\x22' then ['\\', '\x22']
  else if c = '\\' then ['\\', '\\']
  else if c = '\n' then ['\\', 'n']
  else if c = '\r' then ['\\', 'r']
  else if c = '\t' then ['\\', 't']
  else if c.toNat = 0 then ['\\', '0']
  else if isHidden c then codeEscape c
  else [c]

def quote (text : String) : String :=
  String.ofList (['\x22'] ++ text.toList.flatMap quoteChar ++ ['\x22'])

end PlainMath.Text
