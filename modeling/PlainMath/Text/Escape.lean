/-! Raw text made safe for markup: the three characters that would open an
entity or a tag are written as entities, all others stand for themselves. -/
namespace PlainMath.Text

def escapeChar : Char → List Char
  | '&' => "&amp;".toList
  | '<' => "&lt;".toList
  | '>' => "&gt;".toList
  | c => [c]

def escape (raw : List Char) : String := String.ofList (raw.flatMap escapeChar)

end PlainMath.Text
