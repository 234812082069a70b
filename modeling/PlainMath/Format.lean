import PlainMath.Compile
import PlainMath.Data.Json
import PlainMath.Data.Yaml
import PlainMath.Outline

/-! The output formats and the registry in which they are found by name. A
format that is registered again takes the place of the one of the same name. -/
namespace PlainMath

inductive Format where
  /-- markup with the root of the display mode that the options name -/
  | markup (options : Options)
  | outline
  | json
  | yaml
deriving DecidableEq, Repr

structure FormatNotFound where
  name : String
deriving DecidableEq, Repr

def FormatNotFound.message (missing : FormatNotFound) : String :=
  "Format '" ++ missing.name ++ "' not found"

namespace Format

def name : Format → String
  | .markup options =>
    match options.mode with
    | .inline => "mathml"
    | .block => "mathml-block"
  | .outline => "treeviz"
  | .json => "json"
  | .yaml => "yaml"

def description : Format → String
  | .markup options =>
    match options.mode with
    | .inline => "MathML with an inline <math> root"
    | .block => "MathML with a block <math> root"
  | .outline => "Visual tree representation with indentation and Unicode icons"
  | .json => "The tree as pretty-printed JSON"
  | .yaml => "The tree as YAML"

def write (tree : Tree) : Format → String
  | .markup options => tree.write options
  | .outline => Outline.text tree
  | .json => Json.text 0 tree.datum
  | .yaml => Yaml.text tree.datum

end Format

/-- Formats with different names, sorted by name. -/
structure Registry where
  formats : List Format

namespace Registry

def empty : Registry := ⟨[]⟩

/-- Puts a format at its place among formats that are sorted by name. -/
def insert (format : Format) : List Format → List Format
  | [] => [format]
  | other :: rest =>
    if format.name < other.name then format :: other :: rest
    else if format.name = other.name then format :: rest
    else other :: insert format rest

def register (registry : Registry) (format : Format) : Registry :=
  ⟨insert format registry.formats⟩

def get? (registry : Registry) (name : String) : Option Format :=
  registry.formats.find? (·.name == name)

def contains (registry : Registry) (name : String) : Bool := (registry.get? name).isSome

def names (registry : Registry) : List String := registry.formats.map (·.name)

def write (registry : Registry) (tree : Tree) (name : String) : Except FormatNotFound String :=
  match registry.get? name with
  | some format => .ok (format.write tree)
  | none => .error ⟨name⟩

def withOptions (options : Options) : Registry :=
  [ .markup { options with mode := .inline }, .markup { options with mode := .block },
    .outline, .json, .yaml ].foldl register empty

def standard : Registry := withOptions {}

end Registry
end PlainMath
