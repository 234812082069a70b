import PlainMath.Decimal.Radix
import PlainMath.Settings.Basic
import PlainMath.Settings.Fault

/-! Values become settings. Conversion is lenient: a truth value may be a number or
a word, a number may be a text, a text may be a number. -/
namespace PlainMath.Settings

def unfit (key : String) (expected : Kind) (found : Unfit) (value : Value) : Fault :=
  .wrongKind key found expected value.origin

def toBoolean (key : String) (value : Value) : Except Fault Bool :=
  match value with
  | .scalar _ (.boolean content) => .ok content
  | .scalar _ (.integer content) => .ok (content ≠ 0)
  | .scalar _ (.floating content) => .ok !content.isZero
  | .scalar _ (.text content) =>
    let word := Text.lower content
    if word ∈ ["1", "true", "on", "yes"] then .ok true
    else if word ∈ ["0", "false", "off", "no"] then .ok false
    else .error (unfit key .boolean (.text word) value)
  | .scalar _ .missing => .error (unfit key .boolean .missing value)
  | .table _ _ => .error (unfit key .boolean .table value)
  | .array _ _ => .error (unfit key .boolean .array value)

def numberBound : Nat := Nat.pow 2 64

/-- Decimal digits, perhaps behind a plus. -/
def digitsNumber? (text : String) : Option Nat :=
  let digits := match text.toList with
    | '+' :: rest => rest
    | rest => rest
  (Radix.digits? 10 digits).filter (· < numberBound)

def toNumber (key : String) (value : Value) : Except Fault Nat :=
  match value with
  | .scalar _ (.boolean content) => .ok content.toNat
  | .scalar _ (.integer content) =>
    if 0 ≤ content then .ok content.toNat
    else .error (unfit key .unsigned (.integer content) value)
  | .scalar _ (.floating content) => .ok (content.roundNat (numberBound - 1))
  | .scalar _ (.text content) =>
    let word := Text.lower content
    if word ∈ ["true", "on", "yes"] then .ok 1
    else if word ∈ ["false", "off", "no"] then .ok 0
    else match digitsNumber? content with
      | some number => .ok number
      | none => .error (unfit key .number (.text content) value)
  | .scalar _ .missing => .error (unfit key .number .missing value)
  | .table _ _ => .error (unfit key .number .table value)
  | .array _ _ => .error (unfit key .number .array value)

def toText (key : String) (value : Value) : Except Fault String :=
  match value with
  | .scalar _ (.boolean content) => .ok (toString content)
  | .scalar _ (.integer content) => .ok (toString content)
  | .scalar _ (.floating content) => .ok content.text
  | .scalar _ (.text content) => .ok content
  | .scalar _ .missing => .error (unfit key .text .missing value)
  | .table _ _ => .error (unfit key .text .table value)
  | .array _ _ => .error (unfit key .text .array value)

/-- A display mode by its name in any case. -/
def modeOfName (name : String) : Except Fault DisplayMode :=
  match DisplayMode.ofName (Text.lower name) with
  | .ok mode => .ok mode
  | .error _ => .error (.unknownMode name)

def toMode : Value → Except Fault DisplayMode
  | .scalar _ (.text name) => modeOfName name
  | .table _ [(name, _)] => modeOfName name
  | _ => .error .notMode

structure Group where
  name : String
  title : String
  fields : List String

def outputGroup : Group := ⟨"output", "OutputConfig", ["display", "pretty", "indent"]⟩

def inputGroup : Group := ⟨"input", "InputConfig", ["tab_width", "delimiter"]⟩

namespace Group

/-- A field of a group with its key, by name in a table and by place in an array. -/
def find? (group : Group) (value : Value) (place : Nat) : Option (String × Value) :=
  let name := group.fields.getD place ""
  match value with
  | .table _ entries => (Value.get? name entries).map (group.name ++ "." ++ name, ·)
  | .array _ items => items[place]?.map (group.name ++ "[" ++ toString place ++ "]", ·)
  | .scalar _ _ => none

def convert? {α : Type} (group : Group) (value : Value) (place : Nat)
    (convert : String → Value → Except Fault α) : Except Fault (Option α) :=
  match group.find? value place with
  | some (key, field) => (convert key field).map some
  | none => .ok none

def require {α : Type} (group : Group) (value : Value) (place : Nat) :
    Option α → Except Fault α
  | some content => .ok content
  | none =>
    match value with
    | .table _ _ => .error (.missingField (group.fields.getD place ""))
    | .array _ _ => .error (.shortGroup group.title place group.fields.length)
    | .scalar _ content => .error (.notGroup group.title content)

end Group

/-- Fields that are there are converted before any is found missing. -/
def toOutput (value : Value) : Except Fault Output := do
  let display ← outputGroup.convert? value 0 fun _ => toMode
  let pretty ← outputGroup.convert? value 1 toBoolean
  let indent ← outputGroup.convert? value 2 toText
  return {
    display := ← outputGroup.require value 0 display
    pretty := ← outputGroup.require value 1 pretty
    indent := ← outputGroup.require value 2 indent }

def toInput (value : Value) : Except Fault Input := do
  let tabWidth ← inputGroup.convert? value 0 toNumber
  let delimiter ← inputGroup.convert? value 1 toText
  return {
    tabWidth := ← inputGroup.require value 0 tabWidth
    delimiter := ← inputGroup.require value 1 delimiter }

def ofEntries (entries : List (String × Value)) : Except Fault Settings := do
  let some output := Value.get? outputGroup.name entries | .error (.missingField outputGroup.name)
  let some input := Value.get? inputGroup.name entries | .error (.missingField inputGroup.name)
  return { output := ← toOutput output, input := ← toInput input }

end PlainMath.Settings
