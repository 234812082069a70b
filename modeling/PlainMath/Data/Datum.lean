import PlainMath.Tree.Basic

/-! Trees as plain data: texts, lists and records with their fields in order.
Every field of a node is there, also one that holds nothing. -/
namespace PlainMath

inductive Datum where
  | null
  | text (content : String)
  | list (items : List Datum)
  | record (fields : List (String × Datum))

namespace Tree

mutual

def datum : Tree → Datum
  | .grid rows => .record [("kind", .text "grid"), ("rows", .list (rowsData rows))]
  | .row elements => .record [("kind", .text "row"), ("elements", .list (listData elements))]
  | .cluster elements =>
    .record [("kind", .text "cluster"), ("elements", .list (listData elements))]
  | .bracketed left right contents =>
    .record [("kind", .text "bracketed"), ("left", .text left), ("right", .text right),
      ("contents", optionDatum contents)]
  | .identifier symbol => .record [("kind", .text "identifier"), ("symbol", .text symbol)]
  | .operator symbol => .record [("kind", .text "operator"), ("symbol", .text symbol)]
  | .text content => .record [("kind", .text "text"), ("text", .text content)]
  | .number numeral => .record [("kind", .text "number"), ("value", .text numeral)]
  | .fraction numerator denominator =>
    .record [("kind", .text "fraction"), ("numerator", numerator.datum),
      ("denominator", denominator.datum)]
  | .scripted base subscript superscript =>
    .record [("kind", .text "scripted"), ("base", base.datum),
      ("subscript", optionDatum subscript), ("superscript", optionDatum superscript)]
  | .root radicand index =>
    .record [("kind", .text "root"), ("radicand", radicand.datum), ("index", optionDatum index)]
  | .limits glyph lower upper =>
    .record [("kind", .text "limits"),
      ("base", .record [("kind", .text "glyph"), ("value", .text glyph)]),
      ("lower", lower.datum), ("upper", optionDatum upper)]
  | .stackedLimits base lower upper =>
    .record [("kind", .text "limits"),
      ("base", .record [("kind", .text "node"), ("value", base.datum)]),
      ("lower", lower.datum), ("upper", optionDatum upper)]
  | .brace .over base comment =>
    .record [("kind", .text "overbrace"), ("base", base.datum), ("comment", comment.datum)]
  | .brace .under base comment =>
    .record [("kind", .text "underbrace"), ("base", base.datum), ("comment", comment.datum)]

def listData : List Tree → List Datum
  | [] => []
  | tree :: trees => tree.datum :: listData trees

def cellsData : List Tree → List Datum
  | [] => []
  | tree :: trees => .record [("row", tree.datum)] :: cellsData trees

def rowsData : List (List Tree) → List Datum
  | [] => []
  | cells :: rows => .record [("cells", .list (cellsData cells))] :: rowsData rows

def optionDatum : Option Tree → Datum
  | none => .null
  | some tree => tree.datum

end

end Tree
end PlainMath
