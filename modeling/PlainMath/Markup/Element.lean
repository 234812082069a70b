/-! Markup as a tree of elements, and its text. An element with parts has its
start tag and its end tag on lines of their own, one level above its parts; all
else is written on one line. Compact text puts the lines back to back, pretty
text indents each line by its depth and ends it. -/
namespace PlainMath

inductive Atom where
  | filled (tag : String) (property : Option (String × String)) (content : String)
  | void (tag : String) (property : Option (String × String))
deriving DecidableEq, Repr

inductive Markup where
  /-- atoms side by side on one line -/
  | line (atoms : List Atom)
  | element (tag : String) (property : Option (String × String)) (parts : List Markup)

namespace Markup

/-- The tag with its property, as it stands between angle brackets. -/
def heading (tag : String) : Option (String × String) → String
  | none => tag
  | some (name, value) => tag ++ " " ++ name ++ "=\"" ++ value ++ "\""

def startTag (tag : String) (property : Option (String × String)) : String :=
  "<" ++ heading tag property ++ ">"

def endTag (tag : String) : String := "</" ++ tag ++ ">"

def atomText : Atom → String
  | .filled tag property content => startTag tag property ++ content ++ endTag tag
  | .void tag property => "<" ++ heading tag property ++ " />"

mutual

/-- The lines of markup that starts at the given depth, each with its own depth. -/
def lines (depth : Nat) : Markup → List (Nat × String)
  | .line atoms => [(depth, String.join (atoms.map atomText))]
  | .element tag property parts =>
    (depth, startTag tag property) :: (listLines (depth + 1) parts ++ [(depth, endTag tag)])

def listLines (depth : Nat) : List Markup → List (Nat × String)
  | [] => []
  | markup :: rest => markup.lines depth ++ listLines depth rest

end

theorem listLines_eq (depth : Nat) (parts : List Markup) :
    listLines depth parts = parts.flatMap (lines depth) := by
  induction parts with
  | nil => rfl
  | cons markup rest ih => simp [listLines, ih]

end Markup

inductive Style where
  | compact
  | pretty (indent : String)
deriving DecidableEq, Repr

namespace Style

/-- A line, given with its depth, as it is written. -/
def write (style : Style) (line : Nat × String) : String :=
  match style with
  | .compact => line.2
  | .pretty indent => String.join (List.replicate line.1 indent) ++ line.2 ++ "\n"

end Style

namespace Markup

def text (style : Style) (depth : Nat) (markup : Markup) : String :=
  String.join ((markup.lines depth).map style.write)

end Markup
end PlainMath
