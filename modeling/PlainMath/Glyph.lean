/-! The glyphs to which reading and layout give a meaning of their own. -/
namespace PlainMath.Glyph

def subscript : String := "_"
def superscript : String := "^"
def fractionBar : String := "/"
def range : String := ".."
def invisibleProduct : String := "&it;"
def dotProduct : String := "&sdot;"
def factorial : String := "!"
def logicalNot : String := "&not;"
def logicalAnd : String := "&and;"
def prime : String := "&prime;"
def percent : String := "%"
def ellipsis : String := "&hellip;"
def plus : String := "+"
def minus : String := "&minus;"
def asterisk : String := "&lowast;"
def radical : String := "&radic;"
def overbrace : String := "&OverBrace;"
def underbrace : String := "&UnderBrace;"
def differential : String := "&dd;"

/-- Glyphs written behind their operand: another operator is expected next, not a term. -/
def isTrailing (glyph : String) : Bool :=
  glyph == percent || glyph == prime || glyph == ellipsis

/-- Marks that are raised when they end a cluster, as in one-sided limits and conjugates. -/
def isFinalMark (glyph : String) : Bool :=
  glyph == plus || glyph == minus || glyph == asterisk

end PlainMath.Glyph
