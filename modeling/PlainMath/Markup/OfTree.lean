import PlainMath.Markup.Element
import PlainMath.Symbol.Dictionary
import PlainMath.Text.Split
import PlainMath.Tree.Basic

/-! The markup of a tree: one element for each node, with a few exceptions for
rows of at most one element, for scripts without scripts and for spacing. -/
namespace PlainMath

namespace Markup

def filled (tag content : String) : Markup := .line [.filled tag none content]

def empty : Markup := filled "mrow" ""

/-- A single capital letter is set upright. -/
def identifier (symbol : String) : Markup :=
  match symbol.toList with
  | [letter] =>
    if letter.isUpper then .line [.filled "mi" (some ("mathvariant", "normal")) symbol]
    else filled "mi" symbol
  | _ => filled "mi" symbol

/-- The differential has a thin space in front of it, and a subscript sign that
was not folded is a blank. -/
def operator (symbol : String) : Markup :=
  if symbol = Glyph.differential then
    .line [.void "mspace" (some ("width", "thinmathspace")), .filled "mi" none "d"]
  else if symbol = Glyph.subscript then
    .line [.void "mspace" (some ("width", "1ex"))]
  else
    filled "mo" symbol

/-- Text stands between thin spaces, and a backslash with a small u is the micro sign. -/
def quotation (content : String) : Markup :=
  let micro := Text.replaceAll "\\u".toList "&micro;".toList content.toList
  filled "mtext" ("&thinsp;" ++ String.ofList micro ++ "&thinsp;")

/-- A delimiter that is not empty. -/
def fence (delimiter : String) : List Markup :=
  if delimiter = "" then [] else [.line [.filled "mo" (some ("fence", "true")) delimiter]]

def largeOperator (glyph : String) : Markup :=
  .line [.filled "mo" (some ("largeop", "true")) glyph]

/-- A base with bounds below and perhaps above it. -/
def limits (base lower : Markup) : Option Markup → Markup
  | none => .element "munder" none [base, lower]
  | some upper => .element "munderover" none [base, lower, upper]

def scripts (base : Markup) : Option Markup → Option Markup → Markup
  | none, none => base
  | some sub, none => .element "msub" none [base, sub]
  | none, some sup => .element "msup" none [base, sup]
  | some sub, some sup => .element "msubsup" none [base, sub, sup]

def root (radicand : Markup) : Option Markup → Markup
  | none => .element "msqrt" none [radicand]
  | some index => .element "mroot" none [radicand, index]

/-- The brace is directly at the base, the comment outside of it. -/
def brace (side : Side) (base comment : Markup) : Markup :=
  match side with
  | .over => .element "mover" none
      [.element "mover" none [base, filled "mo" Glyph.overbrace], comment]
  | .under => .element "munder" none
      [.element "munder" none [base, filled "mo" Glyph.underbrace], comment]

/-- A row of parts: none make an empty row, a single part stands for itself. -/
def sequence : List Markup → Markup
  | [] => empty
  | [only] => only
  | parts => .element "mrow" none parts

def table : List (List Markup) → Markup
  | [] => empty
  | rows => .element "mtable" none <| rows.map fun cells =>
      .element "mtr" none <| cells.map fun cell => .element "mtd" none [cell]

end Markup

namespace Tree

mutual

def markup : Tree → Markup
  | .grid rows => .table (rowsMarkup rows)
  | .row elements => .sequence (listMarkup elements)
  | .cluster elements => .sequence (listMarkup elements)
  | .bracketed left right contents =>
    .element "mrow" none
      (Markup.fence left ++ (optionMarkup contents).toList ++ Markup.fence right)
  | .identifier symbol => .identifier symbol
  | .operator symbol => .operator symbol
  | .text content => .quotation content
  | .number numeral => .filled "mn" numeral
  | .fraction numerator denominator =>
    .element "mfrac" none [numerator.markup, denominator.markup]
  | .scripted base subscript superscript =>
    .scripts base.markup (optionMarkup subscript) (optionMarkup superscript)
  | .root radicand index => .root radicand.markup (optionMarkup index)
  | .limits glyph lower upper => .limits (.largeOperator glyph) lower.markup (optionMarkup upper)
  | .stackedLimits base lower upper => .limits base.markup lower.markup (optionMarkup upper)
  | .brace side base comment => .brace side base.markup comment.markup

def listMarkup : List Tree → List Markup
  | [] => []
  | tree :: trees => tree.markup :: listMarkup trees

def rowsMarkup : List (List Tree) → List (List Markup)
  | [] => []
  | cells :: rows => listMarkup cells :: rowsMarkup rows

def optionMarkup : Option Tree → Option Markup
  | none => none
  | some tree => some tree.markup

end

theorem listMarkup_eq (trees : List Tree) : listMarkup trees = trees.map markup := by
  induction trees with
  | nil => rfl
  | cons tree trees ih => simp [listMarkup, ih]

theorem rowsMarkup_eq (rows : List (List Tree)) :
    rowsMarkup rows = rows.map (·.map markup) := by
  induction rows with
  | nil => rfl
  | cons cells rows ih => simp [rowsMarkup, listMarkup_eq, ih]

theorem optionMarkup_eq (option : Option Tree) : optionMarkup option = option.map markup := by
  cases option <;> rfl

end Tree
end PlainMath
