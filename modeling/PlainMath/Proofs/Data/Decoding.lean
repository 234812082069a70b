import PlainMath.Format
import PlainMath.Proofs.Data.JsonReader
import PlainMath.Tree.Weight

/-! Trees from data. The kind of a node says which fields it has, and a field is found by its name.
From the data of a tree the tree comes back, and so it does from its JSON text. -/
namespace PlainMath

namespace Datum

structure Part (datum : Datum) where
  inner : Datum
  smaller : sizeOf inner < sizeOf datum

theorem sizeOf_fields_lt (field : String × Datum) (fields : List (String × Datum)) :
    sizeOf (record fields) < sizeOf (record (field :: fields)) := by
  obtain ⟨key, value⟩ := field
  simp only [record.sizeOf_spec, List.cons.sizeOf_spec, Prod.mk.sizeOf_spec]
  omega

def fieldOf? (name : String) : (fields : List (String × Datum)) → Option (Part (.record fields))
  | [] => none
  | (key, value) :: fields =>
    if key = name then
      some ⟨value, sizeOf_field_lt (List.mem_cons_self : (key, value) ∈ (key, value) :: fields)⟩
    else
      (fieldOf? name fields).map fun part =>
        ⟨part.inner, Nat.lt_trans part.smaller (sizeOf_fields_lt (key, value) fields)⟩

def field? (datum : Datum) (name : String) : Option datum.Part :=
  match datum with
  | .record fields => fieldOf? name fields
  | _ => none

def items? (datum : Datum) : Option (List datum.Part) :=
  match datum with
  | .list items => some (items.attach.map fun item => ⟨item.1, sizeOf_item_lt item.2⟩)
  | _ => none

def text? (datum : Datum) : Option String :=
  match datum with
  | .text content => some content
  | _ => none

variable {datum : Datum}

namespace Part

def within (part : datum.Part) (further : part.inner.Part) : datum.Part :=
  ⟨further.inner, Nat.lt_trans further.smaller part.smaller⟩

def field? (part : datum.Part) (name : String) : Option datum.Part :=
  (part.inner.field? name).map part.within

def items? (part : datum.Part) : Option (List datum.Part) :=
  part.inner.items?.map (·.map part.within)

def text? (part : datum.Part) : Option String := part.inner.text?

def optional? {α : Type} (decode : datum.Part → Option α) (part : datum.Part) : Option (Option α) :=
  match part.inner with
  | .null => some none
  | _ => (decode part).map some

def each? {α : Type} (decode : datum.Part → Option α) (part : datum.Part) : Option (List α) := do
  (← part.items?).mapM decode

end Part
end Datum

namespace Tree
open Datum

section
variable (datum : Datum) (decode : datum.Part → Option Tree)

def textAt? (name : String) : Option String := do (← datum.field? name).text?

def treeAt? (name : String) : Option Tree := do decode (← datum.field? name)

def optionAt? (name : String) : Option (Option Tree) := do
  (← datum.field? name).optional? decode

def elementsAt? (name : String) : Option (List Tree) := do (← datum.field? name).each? decode

def rowsAt? (name : String) : Option (List (List Tree)) := do
  (← datum.field? name).each? fun row => do
    (← row.field? "cells").each? fun cell => do decode (← cell.field? "row")

/-- Bounds on a glyph or on a node; the base has a kind of its own. -/
def limits? : Option Tree := do
  let base ← datum.field? "base"
  let kind ← (← base.field? "kind").text?
  let value ← base.field? "value"
  let lower ← treeAt? datum decode "lower"
  let upper ← optionAt? datum decode "upper"
  match kind with
  | "glyph" => return .limits (← value.text?) lower upper
  | "node" => return .stackedLimits (← decode value) lower upper
  | _ => none

def ofKind? (kind : String) : Option Tree := do
  match kind with
  | "grid" => return .grid (← rowsAt? datum decode "rows")
  | "row" => return .row (← elementsAt? datum decode "elements")
  | "cluster" => return .cluster (← elementsAt? datum decode "elements")
  | "bracketed" =>
    return .bracketed (← textAt? datum "left") (← textAt? datum "right")
      (← optionAt? datum decode "contents")
  | "identifier" => return .identifier (← textAt? datum "symbol")
  | "operator" => return .operator (← textAt? datum "symbol")
  | "text" => return .text (← textAt? datum "text")
  | "number" => return .number (← textAt? datum "value")
  | "fraction" =>
    return .fraction (← treeAt? datum decode "numerator") (← treeAt? datum decode "denominator")
  | "scripted" =>
    return .scripted (← treeAt? datum decode "base") (← optionAt? datum decode "subscript")
      (← optionAt? datum decode "superscript")
  | "root" =>
    return .root (← treeAt? datum decode "radicand") (← optionAt? datum decode "index")
  | "limits" => limits? datum decode
  | "overbrace" =>
    return .brace .over (← treeAt? datum decode "base") (← treeAt? datum decode "comment")
  | "underbrace" =>
    return .brace .under (← treeAt? datum decode "base") (← treeAt? datum decode "comment")
  | _ => none

end

def ofDatum? (datum : Datum) : Option Tree := do
  ofKind? datum (fun part => ofDatum? part.inner) (← textAt? datum "kind")
termination_by sizeOf datum
decreasing_by exact part.smaller

theorem listData_eq (trees : List Tree) : listData trees = trees.map datum := by
  induction trees with
  | nil => simp [listData]
  | cons tree trees ih => simp [listData, ih]

theorem cellsData_eq (cells : List Tree) :
    cellsData cells = cells.map fun cell => .record [("row", cell.datum)] := by
  induction cells with
  | nil => simp [cellsData]
  | cons cell cells ih => simp [cellsData, ih]

theorem rowsData_eq (rows : List (List Tree)) :
    rowsData rows = rows.map fun cells => .record [("cells", .list (cellsData cells))] := by
  induction rows with
  | nil => simp [rowsData]
  | cons cells rows ih => simp [rowsData, ih]

section
variable {datum : Datum} {α : Type} {decode : datum.Part → Option α} {encode : α → Datum}

theorem mapM_parts {items : List α}
    (back : ∀ item ∈ items, ∀ smaller, decode ⟨encode item, smaller⟩ = some item)
    {parts : List datum.Part} (same : parts.map Part.inner = items.map encode) :
    parts.mapM decode = some items := by
  induction parts generalizing items with
  | nil =>
    cases items with
    | nil => rfl
    | cons => cases same
  | cons part parts ih =>
    cases items with
    | nil => cases same
    | cons item items =>
      obtain ⟨inner, smaller⟩ := part
      obtain ⟨rfl, others⟩ := List.cons.inj same
      rw [List.forall_mem_cons] at back
      simp [List.mapM_cons, back.1, ih back.2 others]

theorem each?_map {items : List α}
    (back : ∀ item ∈ items, ∀ smaller, decode ⟨encode item, smaller⟩ = some item)
    (smaller : sizeOf (Datum.list (items.map encode)) < sizeOf datum) :
    Part.each? decode ⟨.list (items.map encode), smaller⟩ = some items := by
  rw [Part.each?, Part.items?, Datum.items?, Option.map_some]
  refine mapM_parts back ?_
  simp only [List.map_map, Function.comp_def, Part.within]
  exact List.attach_map_subtype_val _

end

theorem ofDatum?_record (kind : String) (fields : List (String × Datum)) :
    ofDatum? (.record (("kind", .text kind) :: fields)) =
      ofKind? (.record (("kind", .text kind) :: fields)) (fun part => ofDatum? part.inner)
        kind := by
  rw [ofDatum?]
  rfl

theorem datum_ne_null (tree : Tree) : tree.datum ≠ .null := by
  cases tree with
  | brace side => cases side <;> simp [datum]
  | _ => simp [datum]

section
variable {datum : Datum} {name : String}

theorem textAt?_eq {content : String} {smaller : sizeOf (Datum.text content) < sizeOf datum}
    (found : datum.field? name = some ⟨.text content, smaller⟩) :
    textAt? datum name = some content := by
  rw [textAt?, found]
  rfl

theorem treeAt?_eq {tree : Tree} {smaller : sizeOf tree.datum < sizeOf datum}
    (found : datum.field? name = some ⟨tree.datum, smaller⟩)
    (back : ofDatum? tree.datum = some tree) :
    treeAt? datum (fun part => ofDatum? part.inner) name = some tree := by
  rw [treeAt?, found]
  exact back

theorem optionAt?_eq {option : Option Tree} {smaller : sizeOf (optionDatum option) < sizeOf datum}
    (found : datum.field? name = some ⟨optionDatum option, smaller⟩)
    (back : ∀ tree ∈ option.toList, ofDatum? tree.datum = some tree) :
    optionAt? datum (fun part => ofDatum? part.inner) name = some option := by
  rw [optionAt?, found, Option.bind_eq_bind, Option.bind_some]
  cases option with
  | none => simp only [Part.optional?, optionDatum]
  | some tree =>
    simp only [Part.optional?, optionDatum]
    split
    · exact absurd ‹_› tree.datum_ne_null
    · rw [back tree (by simp)]
      rfl

theorem elementsAt?_eq {elements : List Tree}
    {smaller : sizeOf (Datum.list (listData elements)) < sizeOf datum}
    (found : datum.field? name = some ⟨.list (listData elements), smaller⟩)
    (back : ∀ tree ∈ elements, ofDatum? tree.datum = some tree) :
    elementsAt? datum (fun part => ofDatum? part.inner) name = some elements := by
  rw [elementsAt?, found, Option.bind_eq_bind, Option.bind_some]
  simp only [listData_eq]
  exact each?_map (fun tree member _ => back tree member) _

theorem rowsAt?_eq {rows : List (List Tree)}
    {smaller : sizeOf (Datum.list (rowsData rows)) < sizeOf datum}
    (found : datum.field? name = some ⟨.list (rowsData rows), smaller⟩)
    (back : ∀ cells ∈ rows, ∀ tree ∈ cells, ofDatum? tree.datum = some tree) :
    rowsAt? datum (fun part => ofDatum? part.inner) name = some rows := by
  rw [rowsAt?, found, Option.bind_eq_bind, Option.bind_some]
  simp only [rowsData_eq, cellsData_eq]
  refine each?_map (fun cells row _ => ?_) _
  exact each?_map (fun tree member _ => back cells row tree member) _

end

theorem ofDatum?_datum (tree : Tree) : ofDatum? tree.datum = some tree := by
  induction tree using Tree.induct with
  | step tree ih =>
    cases tree with
    | grid rows =>
      have back : ∀ cells ∈ rows, ∀ tree ∈ cells, ofDatum? tree.datum = some tree :=
        fun cells row tree member => ih tree (List.mem_flatten_of_mem row member)
      rw [datum, ofDatum?_record, ofKind?, rowsAt?_eq rfl back]
      rfl
    | row elements =>
      rw [datum, ofDatum?_record, ofKind?, elementsAt?_eq rfl ih]
      rfl
    | cluster elements =>
      rw [datum, ofDatum?_record, ofKind?, elementsAt?_eq rfl ih]
      rfl
    | bracketed left right contents =>
      rw [datum, ofDatum?_record, ofKind?, textAt?_eq rfl, textAt?_eq rfl, optionAt?_eq rfl ih]
      rfl
    | identifier symbol =>
      rw [datum, ofDatum?_record, ofKind?, textAt?_eq rfl]
      rfl
    | operator symbol =>
      rw [datum, ofDatum?_record, ofKind?, textAt?_eq rfl]
      rfl
    | text content =>
      rw [datum, ofDatum?_record, ofKind?, textAt?_eq rfl]
      rfl
    | number numeral =>
      rw [datum, ofDatum?_record, ofKind?, textAt?_eq rfl]
      rfl
    | fraction numerator denominator =>
      simp only [children, List.forall_mem_cons] at ih
      rw [datum, ofDatum?_record, ofKind?, treeAt?_eq rfl ih.1, treeAt?_eq rfl ih.2.1]
      rfl
    | scripted base subscript superscript =>
      simp only [children, List.forall_mem_cons, List.forall_mem_append] at ih
      rw [datum, ofDatum?_record, ofKind?, treeAt?_eq rfl ih.1, optionAt?_eq rfl ih.2.1,
        optionAt?_eq rfl ih.2.2]
      rfl
    | root radicand index =>
      simp only [children, List.forall_mem_cons] at ih
      rw [datum, ofDatum?_record, ofKind?, treeAt?_eq rfl ih.1, optionAt?_eq rfl ih.2]
      rfl
    | limits glyph lower upper =>
      simp only [children, List.forall_mem_cons] at ih
      rw [datum, ofDatum?_record, ofKind?, limits?, treeAt?_eq rfl ih.1, optionAt?_eq rfl ih.2]
      rfl
    | stackedLimits base lower upper =>
      simp only [children, List.forall_mem_cons] at ih
      rw [datum, ofDatum?_record, ofKind?, limits?, treeAt?_eq rfl ih.2.1, optionAt?_eq rfl ih.2.2]
      change (do return Tree.stackedLimits (← ofDatum? base.datum) lower upper) = _
      rw [ih.1]
      rfl
    | brace side base comment =>
      simp only [children, List.forall_mem_cons] at ih
      cases side <;>
        rw [datum, ofDatum?_record, ofKind?, treeAt?_eq rfl ih.1, treeAt?_eq rfl ih.2.1] <;>
        rfl

end Tree

/-- The JSON text of a tree, read as JSON and decoded, is the tree, and so different trees have
different texts. -/
theorem json_determines_tree :
    (∀ tree, (Json.read? (Format.json.write tree)).bind Tree.ofDatum? = some tree) ∧
      ∀ tree other, Format.json.write tree = Format.json.write other ↔ tree = other := by
  have back (tree : Tree) :
      (Json.read? (Format.json.write tree)).bind Tree.ofDatum? = some tree := by
    rw [Format.write, Json.read?_text, Option.bind_some, Tree.ofDatum?_datum]
  refine ⟨back, fun tree other => ⟨fun same => ?_, congrArg Format.json.write⟩⟩
  have both := back tree
  rw [same, back other] at both
  exact (Option.some.inj both).symm

end PlainMath
