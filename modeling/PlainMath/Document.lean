import PlainMath.Compile

/-! Notation embedded in prose. A delimiter stands before and after each region
of notation; a region holds blocks with blank lines between them, and each block
becomes a formula of its own. Prose is left as it is. -/
namespace PlainMath

inductive Segment where
  | prose (text : String)
  | formula (text : String)
deriving DecidableEq, Repr

namespace Document

def alternate : Bool → List (List Char) → List Segment
  | _, [] => []
  | true, part :: parts => .prose (String.ofList part) :: alternate false parts
  | false, part :: parts => .formula (String.ofList part) :: alternate true parts

/-- The regions between delimiters. Notation that is not closed goes on to the
end, and with an empty delimiter everything is prose. -/
def segments (text delimiter : String) : List Segment :=
  alternate true (Text.splitOn delimiter.toList text.toList)

/-- The blocks of a region of notation, without empty ones. -/
def blocks (region : String) : List String :=
  ((Text.splitOn ['\n', '\n'] region.toList).filter (· ≠ [])).map String.ofList

def renderBlock (options : Options) (block : String) : String :=
  "<div>" ++ compile block { options with mode := .block } ++ "</div>"

def renderSegment (options : Options) : Segment → String
  | .prose text => text
  | .formula text => String.join ((blocks text).map (renderBlock options))

def render (text delimiter : String) (options : Options) : String :=
  String.join ((segments text delimiter).map (renderSegment options))

end Document
end PlainMath
