import PlainMath.Data.Json
import Mathlib.Data.List.Basic

/-! A reader of JSON. It goes over the characters once, and keeps the lists and records that are
open. The data hold no numbers and no truth values, so none are read. The text that is written for
data is read as these data. -/
namespace PlainMath

theorem Datum.sizeOf_item_lt {items : List Datum} {item : Datum} (member : item ∈ items) :
    sizeOf item < sizeOf (Datum.list items) := by
  have smaller := List.sizeOf_lt_of_mem member
  simp only [Datum.list.sizeOf_spec]
  omega

theorem Datum.sizeOf_field_lt {fields : List (String × Datum)} {field : String × Datum}
    (member : field ∈ fields) : sizeOf field.2 < sizeOf (Datum.record fields) := by
  obtain ⟨key, value⟩ := field
  have smaller := List.sizeOf_lt_of_mem member
  simp only [Prod.mk.sizeOf_spec, Datum.record.sizeOf_spec] at smaller ⊢
  omega

theorem Datum.induct {P : Datum → Prop} (null : P .null) (text : ∀ content, P (.text content))
    (list : ∀ items, (∀ item ∈ items, P item) → P (.list items))
    (record : ∀ fields, (∀ field ∈ fields, P field.2) → P (.record fields)) (datum : Datum) :
    P datum :=
  match datum with
  | .null => null
  | .text content => text content
  | .list items => list items fun item _ => Datum.induct null text list record item
  | .record fields => record fields fun field _ => Datum.induct null text list record field.2
termination_by sizeOf datum
decreasing_by
  · exact Datum.sizeOf_item_lt ‹item ∈ items›
  · exact Datum.sizeOf_field_lt ‹field ∈ fields›

namespace Json

/-- Where the reader is in a quoted text. Above the basic plane a character is written by two
escapes, of which the first one is kept as `high`. -/
inductive Quoting where
  | plain
  | escape (high : Option Nat)
  | digits (high : Option Nat) (read : List Char)
  | second (high : Nat)

namespace Quoting

def escaped? (c : Char) : Option Char :=
  [ ('\x22', '\x22'), ('\\', '\\'), ('/', '/'), ('b', '\x08'), ('f', '\x0c'), ('n', '\n'),
    ('r', '\r'), ('t', '\t') ].lookup c

/-- What is read with the four digits of an escape, behind the first half of a pair or not. -/
def unit? (high : Option Nat) (code : Nat) : Option (Quoting × List Char) :=
  match high with
  | none =>
    if 0xd800 ≤ code ∧ code < 0xdc00 then some (.second code, [])
    else if 0xdc00 ≤ code ∧ code < 0xe000 then none
    else some (.plain, [Char.ofNat code])
  | some high =>
    if 0xdc00 ≤ code ∧ code < 0xe000 then
      some (.plain, [Char.ofNat (0x10000 + 0x400 * (high - 0xd800) + (code - 0xdc00))])
    else none

/-- One character of a quoted text, and the character of the content that ends with it, if any. -/
def step? (c : Char) : Quoting → Option (Quoting × List Char)
  | .plain =>
    if c = '\\' then some (.escape none, [])
    else if c.toNat < 0x20 then none
    else some (.plain, [c])
  | .escape high =>
    if c = 'u' then some (.digits high [], [])
    else if high.isSome then none
    else (escaped? c).map fun content => (.plain, [content])
  | .digits high read =>
    let read := read ++ [c]
    if read.length < 4 then some (.digits high read, [])
    else (Radix.digits? 16 read).bind (unit? high)
  | .second high => if c = '\\' then some (.escape (some high), []) else none

end Quoting

/-- A list or record that is open, with what has been read of it, the last first. The value behind
the key of a record is still to come. -/
inductive Frame where
  | list (items : List Datum)
  | record (fields : List (String × Datum)) (key : String)

inductive Phase where
  | value
  | key (fields : List (String × Datum))
  | colon (fields : List (String × Datum)) (key : String)
  /-- a letter of `null`, with those behind it -/
  | letters (next : Char) (behind : List Char)
  /-- the rest of a quoted text, which is a key if the fields in front of it are given -/
  | quoted (fields? : Option (List (String × Datum))) (content : List Char) (quoting : Quoting)
  /-- nothing of the value itself -/
  | done (value : Datum)

structure Reader where
  stack : List Frame
  phase : Phase

namespace Reader

def isBlank (c : Char) : Bool := c = ' ' || c = '\n' || c = '\r' || c = '\t'

/-- Only a list in which nothing has been read yet closes where a value is expected. -/
def beginValue (stack : List Frame) (c : Char) : Option Reader :=
  if c = '[' then some ⟨.list [] :: stack, .value⟩
  else if c = '\x7b' then some ⟨stack, .key []⟩
  else if c = '\x22' then some ⟨stack, .quoted none [] .plain⟩
  else if c = 'n' then some ⟨stack, .letters 'u' ['l', 'l']⟩
  else match stack with
    | .list [] :: stack => if c = ']' then some ⟨stack, .done (.list [])⟩ else none
    | _ => none

def beginKey (stack : List Frame) (fields : List (String × Datum)) (c : Char) : Option Reader :=
  if c = '\x22' then some ⟨stack, .quoted (some fields) [] .plain⟩
  else if c = '\x7d' ∧ fields.isEmpty then some ⟨stack, .done (.record [])⟩
  else none

def putValue (stack : List Frame) (value : Datum) (c : Char) : Option Reader :=
  match stack with
  | [] => none
  | .list items :: stack =>
    if c = ',' then some ⟨.list (value :: items) :: stack, .value⟩
    else if c = ']' then some ⟨stack, .done (.list (value :: items).reverse)⟩
    else none
  | .record fields key :: stack =>
    if c = ',' then some ⟨stack, .key ((key, value) :: fields)⟩
    else if c = '\x7d' then some ⟨stack, .done (.record ((key, value) :: fields).reverse)⟩
    else none

def closeQuote (stack : List Frame) (fields? : Option (List (String × Datum)))
    (content : List Char) : Reader :=
  match fields? with
  | none => ⟨stack, .done (.text (String.ofList content))⟩
  | some fields => ⟨stack, .colon fields (String.ofList content)⟩

/-- One character. Outside of texts and of `null`, blanks change nothing. -/
def step? (reader : Reader) (c : Char) : Option Reader :=
  match reader.phase with
  | .quoted fields? content .plain =>
    if c = '\x22' then some (closeQuote reader.stack fields? content)
    else (Quoting.plain.step? c).map fun next =>
      ⟨reader.stack, .quoted fields? (content ++ next.2) next.1⟩
  | .quoted fields? content quoting =>
    (quoting.step? c).map fun next => ⟨reader.stack, .quoted fields? (content ++ next.2) next.1⟩
  | .letters next [] => if c = next then some ⟨reader.stack, .done .null⟩ else none
  | .letters next (second :: behind) =>
    if c = next then some ⟨reader.stack, .letters second behind⟩ else none
  | .value => if isBlank c then some reader else beginValue reader.stack c
  | .key fields => if isBlank c then some reader else beginKey reader.stack fields c
  | .colon fields key =>
    if isBlank c then some reader
    else if c = ':' then some ⟨.record fields key :: reader.stack, .value⟩ else none
  | .done value => if isBlank c then some reader else putValue reader.stack value c

def run? (reader : Reader) (text : List Char) : Option Reader := text.foldlM step? reader

end Reader

def read? (source : String) : Option Datum :=
  match Reader.run? ⟨[], .value⟩ source.toList with
  | some ⟨[], .done datum⟩ => some datum
  | _ => none

namespace Reader

@[simp] theorem run?_nil (reader : Reader) : reader.run? [] = some reader := rfl

@[simp] theorem run?_cons (reader : Reader) (c : Char) (text : List Char) :
    reader.run? (c :: text) = (reader.step? c).bind (run? · text) := rfl

@[simp] theorem run?_append (reader : Reader) (first second : List Char) :
    reader.run? (first ++ second) = (reader.run? first).bind (run? · second) :=
  List.foldlM_append

def isLoose : Reader → Bool
  | ⟨_, .quoted ..⟩ => false
  | ⟨_, .letters ..⟩ => false
  | _ => true

theorem run?_blanks {reader : Reader} (loose : reader.isLoose = true) {text : List Char}
    (blank : ∀ c ∈ text, isBlank c = true) : reader.run? text = some reader := by
  induction text with
  | nil => rfl
  | cons c text ih =>
    obtain ⟨here, behind⟩ := List.forall_mem_cons.mp blank
    have stays : reader.step? c = some reader := by
      obtain ⟨stack, phase⟩ := reader
      cases phase with
      | quoted => cases loose
      | letters => cases loose
      | _ => simp [step?, here]
    rw [run?_cons, stays, Option.bind_some, ih behind]

theorem digits?_control {code : Nat} (control : code < 0x20) :
    Radix.digits? 16 ['0', '0', Radix.hexDigit (code / 16), Radix.hexDigit (code % 16)] =
      some code := by
  decide +revert

section
variable (stack : List Frame) (fields? : Option (List (String × Datum)))

theorem run?_escapeChar (content : List Char) (c : Char) :
    run? ⟨stack, .quoted fields? content .plain⟩ (escapeChar c) =
      some ⟨stack, .quoted fields? (content ++ [c]) .plain⟩ := by
  have short (letter : Char) (known : Quoting.escaped? letter = some c) (plain : letter ≠ 'u') :
      run? ⟨stack, .quoted fields? content .plain⟩ ['\\', letter] =
        some ⟨stack, .quoted fields? (content ++ [c]) .plain⟩ := by
    simp [step?, Quoting.step?, known, plain]
  unfold escapeChar
  split_ifs with quotes backslash backspace feed newline home tab control
  any_goals
    subst c
    exact short _ rfl (by decide)
  · have below : ¬ 0xd800 ≤ c.toNat ∧ ¬ 0xdc00 ≤ c.toNat := by omega
    simp [step?, Quoting.step?, digits?_control control, Quoting.unit?, below, Char.ofNat_toNat]
  · simp [step?, Quoting.step?, quotes, backslash, control]

theorem run?_quoted (before content : List Char) :
    run? ⟨stack, .quoted fields? before .plain⟩ (content.flatMap escapeChar ++ ['\x22']) =
      some (closeQuote stack fields? (before ++ content)) := by
  induction content generalizing before with
  | nil => simp [step?]
  | cons c content ih =>
    rw [List.flatMap_cons, List.append_assoc, run?_append, run?_escapeChar, Option.bind_some, ih]
    simp

end

theorem toList_quote (content : String) :
    (quote content).toList = '\x22' :: (content.toList.flatMap escapeChar ++ ['\x22']) := by
  simp [quote]

theorem run?_quote (stack : List Frame) (content : String) :
    run? ⟨stack, .value⟩ (quote content).toList = some ⟨stack, .done (.text content)⟩ := by
  have opened : step? ⟨stack, .value⟩ '\x22' = some ⟨stack, .quoted none [] .plain⟩ := rfl
  rw [toList_quote, run?_cons, opened, Option.bind_some, run?_quoted]
  simp [closeQuote]

theorem run?_key (stack : List Frame) (fields : List (String × Datum)) (key : String) :
    run? ⟨stack, .key fields⟩ (quote key ++ ": ").toList =
      some ⟨.record fields key :: stack, .value⟩ := by
  have opened : step? ⟨stack, .key fields⟩ '\x22' =
      some ⟨stack, .quoted (some fields) [] .plain⟩ := rfl
  rw [String.toList_append, run?_append, toList_quote, run?_cons, opened, Option.bind_some,
    run?_quoted]
  simp [closeQuote, step?, isBlank]

theorem intercalate_cons_eq (between line : List Char) (lines : List (List Char)) :
    between.intercalate (line :: lines) = line ++ lines.flatMap (between ++ ·) := by
  induction lines generalizing line with
  | nil => simp
  | cons next lines ih => simp [List.intercalate_cons_cons, ih]

def line (depth : Nat) (part : String) : List Char :=
  '\n' :: (indentation depth).toList ++ part.toList

theorem toList_enclose (left right : String) (depth : Nat) (part : String) (parts : List String) :
    (enclose left right depth (part :: parts)).toList =
      left.toList ++ (line (depth + 1) part ++
        (parts.flatMap (fun part => ',' :: line (depth + 1) part) ++ line depth right)) := by
  simp [enclose, line, String.toList_intercalate, intercalate_cons_eq, List.flatMap_map,
    Function.comp_def]

theorem run?_line {reader : Reader} (loose : reader.isLoose = true) (depth : Nat) (part : String) :
    reader.run? (line depth part) = reader.run? part.toList := by
  have blanks : reader.run? ('\n' :: (indentation depth).toList) = some reader :=
    run?_blanks loose (by simp [indentation, isBlank])
  rw [line, run?_append, blanks, Option.bind_some]

end Reader

/-- How the reader goes through a list or a record: in front of an element, behind an element and
when it is closed. The elements that have been read come with the last first. -/
structure Container (α : Type) (closer : Char) where
  before : List α → Reader
  behind : α → List α → Reader
  whole : List α → Reader
  before_loose : ∀ read, (before read).isLoose = true
  behind_loose : ∀ last read, (behind last read).isLoose = true
  comma : ∀ last read, (behind last read).step? ',' = some (before (last :: read))
  empty : (before []).step? closer = some (whole [])
  closed : ∀ last read, (behind last read).step? closer = some (whole (last :: read).reverse)

namespace Container
open Reader

def list (stack : List Frame) : Container Datum ']' where
  before read := ⟨.list read :: stack, .value⟩
  behind last read := ⟨.list read :: stack, .done last⟩
  whole items := ⟨stack, .done (.list items)⟩
  before_loose _ := rfl
  behind_loose _ _ := rfl
  comma _ _ := rfl
  empty := rfl
  closed _ _ := rfl

def record (stack : List Frame) : Container (String × Datum) '\x7d' where
  before read := ⟨stack, .key read⟩
  behind last read := ⟨.record read last.1 :: stack, .done last.2⟩
  whole fields := ⟨stack, .done (.record fields)⟩
  before_loose _ := rfl
  behind_loose _ _ := rfl
  comma _ _ := rfl
  empty := rfl
  closed _ _ := rfl

variable {α : Type} {closer : Char} (container : Container α closer) {write : α → String}
  {elements : List α}
  (read : ∀ element ∈ elements, ∀ read, (container.before read).run? (write element).toList =
    some (container.behind element read))
include read

theorem run?_behind (depth : Nat) (last : α) (done : List α) :
    (container.behind last done).run?
      ((elements.map write).flatMap (fun part => ',' :: line (depth + 1) part) ++
        line depth (String.singleton closer)) =
      some (container.whole ((last :: done).reverse ++ elements)) := by
  induction elements generalizing last done with
  | nil =>
    rw [List.map_nil, List.flatMap_nil, List.nil_append,
      run?_line (container.behind_loose last done)]
    simp [container.closed last done]
  | cons next elements ih =>
    rw [List.forall_mem_cons] at read
    rw [List.map_cons, List.flatMap_cons, List.append_assoc, run?_append, run?_cons,
      container.comma, Option.bind_some, run?_line (container.before_loose _), read.1,
      Option.bind_some, ih read.2]
    simp

theorem run?_enclose {start : Reader} {left : String}
    (opened : start.run? left.toList = some (container.before [])) (depth : Nat) :
    start.run? (enclose left (String.singleton closer) depth (elements.map write)).toList =
      some (container.whole elements) := by
  cases elements with
  | nil =>
    have written : enclose left (String.singleton closer) depth [] =
        left ++ String.singleton closer := rfl
    simp [written, opened, container.empty]
  | cons first elements =>
    rw [List.forall_mem_cons] at read
    rw [List.map_cons, toList_enclose, run?_append, opened, Option.bind_some, run?_append,
      run?_line (container.before_loose []), read.1, Option.bind_some,
      container.run?_behind read.2]
    simp

end Container

theorem listTexts_eq (depth : Nat) (items : List Datum) :
    listTexts depth items = items.map (text depth) := by
  induction items with
  | nil => simp [listTexts]
  | cons item items ih => simp [listTexts, ih]

theorem fieldTexts_eq (depth : Nat) (fields : List (String × Datum)) :
    fieldTexts depth fields =
      fields.map fun field => quote field.1 ++ ": " ++ text depth field.2 := by
  induction fields with
  | nil => simp [fieldTexts]
  | cons field fields ih => simp [fieldTexts, ih]

theorem run?_text (depth : Nat) (datum : Datum) (stack : List Frame) :
    Reader.run? ⟨stack, .value⟩ (text depth datum).toList = some ⟨stack, .done datum⟩ := by
  induction datum using Datum.induct generalizing depth stack with
  | null =>
    rw [text]
    rfl
  | text content =>
    rw [text]
    exact Reader.run?_quote stack content
  | list items ih =>
    rw [text, listTexts_eq]
    exact (Container.list stack).run?_enclose (fun item member read => ih item member _ _) rfl depth
  | record fields ih =>
    rw [text, fieldTexts_eq]
    refine (Container.record stack).run?_enclose (fun field member read => ?_) rfl depth
    have key : ((Container.record stack).before read).run? (quote field.1 ++ ": ").toList =
        some ⟨.record read field.1 :: stack, .value⟩ := Reader.run?_key stack read field.1
    rw [String.toList_append, Reader.run?_append, key, Option.bind_some, ih field member]
    rfl

theorem read?_text (datum : Datum) : read? (text 0 datum) = some datum := by
  rw [read?, run?_text]

example : read? " [\n\"\\ud83d\\ude00\", \x7b\x7d]" = some (.list [.text "😀", .record []]) := by
  rfl

example : read? "[null,]" = none := by rfl

end Json
end PlainMath
