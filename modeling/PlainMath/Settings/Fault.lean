import PlainMath.Settings.Value
import PlainMath.Text.Quote

/-! What can be wrong with settings, and how it is reported. -/
namespace PlainMath.Settings

inductive Unfit where
  | missing
  | integer (value : Int)
  | text (value : String)
  | table
  | array
deriving DecidableEq, Repr

inductive Kind where
  | boolean
  | number
  /-- a number of which only the sign is wrong -/
  | unsigned
  | text
deriving DecidableEq, Repr

inductive Fault where
  | missingFile (path : String)
  | notText
  | malformedFile (path : String)
  | malformedPath (path : String)
  | wrongKind (key : String) (found : Unfit) (expected : Kind) (origin : Option String)
  | unknownMode (name : String)
  /-- a display mode that is neither a text nor a table with one key -/
  | notMode
  | notGroup (title : String) (found : Scalar)
  | missingField (name : String)
  /-- a group given as an array with too few items -/
  | shortGroup (title : String) (length expected : Nat)
deriving DecidableEq, Repr

def Unfit.description : Unfit → String
  | .missing => "unit value"
  | .integer value => "64-bit integer `" ++ toString value ++ "`"
  | .text value => "string " ++ Text.quote value
  | .table => "map"
  | .array => "sequence"

def Kind.description : Kind → String
  | .boolean => "a boolean"
  | .number => "an integer"
  | .unsigned => "an unsigned 64 bit or less integer"
  | .text => "a string"

/-- A number that always shows a decimal point, if it is finite. -/
def pointed (value : Binary64) : String :=
  let text := value.text
  if value.isFinite && !text.toList.contains '.' then text ++ ".0" else text

def Scalar.description : Scalar → String
  | .missing => "unit value"
  | .boolean value => "boolean `" ++ toString value ++ "`"
  | .integer value => "integer `" ++ toString value ++ "`"
  | .floating value => "floating point `" ++ pointed value ++ "`"
  | .text value => "string " ++ Text.quote value

namespace Fault

def message : Fault → String
  | .missingFile path => "configuration file \"" ++ path ++ "\" not found"
  | .notText => "stream did not contain valid UTF-8"
  | .malformedFile path => "TOML parse error in " ++ path
  | .malformedPath path => "malformed path " ++ Text.quote path
  | .wrongKind key found expected origin =>
    "invalid type: " ++ found.description ++ ", expected " ++ expected.description ++
      " for key `" ++ key ++ "`" ++ (origin.elim "" (" in " ++ ·))
  | .unknownMode name => "enum DisplayMode does not have variant constructor " ++ name
  | .notMode =>
    "value of enum DisplayMode should be represented by either string or table with exactly one key"
  | .notGroup title found =>
    "invalid type: " ++ found.description ++ ", expected struct " ++ title
  | .missingField name => "missing field `" ++ name ++ "`"
  | .shortGroup title length expected =>
    "invalid length " ++ toString length ++ ", expected struct " ++ title ++ " with " ++
      toString expected ++ " elements"

end Fault
end PlainMath.Settings
