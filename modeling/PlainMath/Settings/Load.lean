import PlainMath.Settings.Convert
import PlainMath.Settings.Path
import PlainMath.Toml.Document

/-! Settings in layers: the defaults, then files, then single values. A later layer
goes over an earlier one entry by entry. -/
namespace PlainMath.Settings

inductive Content where
  | missing
  | notText
  | text (text : List Char)

structure Layer where
  path : String
  content : Content
  required : Bool := true

structure Override where
  path : String
  content : Scalar

def entries (settings : Settings) : List (String × Value) :=
  [ (outputGroup.name, .table none
      [ ("display", .scalar none (.text settings.output.display.name)),
        ("pretty", .scalar none (.boolean settings.output.pretty)),
        ("indent", .scalar none (.text settings.output.indent)) ]),
    (inputGroup.name, .table none
      [ ("tab_width", .scalar none (.integer settings.input.tabWidth)),
        ("delimiter", .scalar none (.text settings.input.delimiter)) ]) ]

mutual

/-- A value from a file, and everything in it, with its origin. -/
def Value.ofFile (origin : String) : Toml.Value → Value
  | .boolean value => .scalar origin (.boolean value)
  | .integer value => .scalar origin (.integer value)
  | .floating value => .scalar origin (.floating value)
  | .text value => .scalar origin (.text value)
  | .array items => .array origin (Value.ofItems origin items)
  | .table entries => .table origin (Value.ofEntries origin entries)

def Value.ofItems (origin : String) : List Toml.Value → List Value
  | [] => []
  | item :: items => Value.ofFile origin item :: Value.ofItems origin items

def Value.ofEntries (origin : String) : List (String × Toml.Value) → List (String × Value)
  | [] => []
  | (key, value) :: entries => (key, Value.ofFile origin value) :: Value.ofEntries origin entries

end

/-- Puts a file over the values so far. A file that is not required may be missing
or hold no text, but it may not be malformed. -/
def addLayer (settings : Value) (layer : Layer) : Except Fault Value :=
  match layer.content with
  | .missing => if layer.required then .error (.missingFile layer.path) else .ok settings
  | .notText => if layer.required then .error .notText else .ok settings
  | .text text =>
    match Toml.read? text with
    | some entries => .ok (settings.layer (Value.ofEntries layer.path entries))
    | none => .error (.malformedFile layer.path)

def Override.path? (override : Override) : Except Fault (Path × Scalar) :=
  match Path.ofText? override.path with
  | some path => .ok (path, override.content)
  | none => .error (.malformedPath override.path)

/-- Paths are read before any file is. -/
def load (layers : List Layer) (overrides : List Override) : Except Fault Settings := do
  let overrides ← overrides.mapM Override.path?
  let layered ← layers.foldlM addLayer (.table none (entries {}))
  let values := overrides.foldl
    (fun settings (path, content) => settings.set path (.scalar none content)) layered
  match values with
  | .table _ entries => ofEntries entries
  | .array _ _ | .scalar _ _ => .error (.missingField outputGroup.name)

end PlainMath.Settings
