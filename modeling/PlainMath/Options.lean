import PlainMath.Markup.Element

/-! What can be chosen for a single compilation. -/
namespace PlainMath

/-- Whether the formula stands on its own or in the flow of the prose. -/
inductive DisplayMode where
  | inline
  | block
deriving DecidableEq, Repr

structure UnknownDisplayMode where
  text : String
deriving DecidableEq, Repr

def UnknownDisplayMode.message (unknown : UnknownDisplayMode) : String :=
  "Unknown display mode '" ++ unknown.text ++ "' (expected 'inline' or 'block')"

namespace DisplayMode

def name : DisplayMode → String
  | .inline => "inline"
  | .block => "block"

/-- Upper and lower case differ; the block mode has a second name. -/
def ofName (text : String) : Except UnknownDisplayMode DisplayMode :=
  if text = "inline" then .ok .inline
  else if text = "block" ∨ text = "display" then .ok .block
  else .error ⟨text⟩

end DisplayMode

def defaultTabWidth : Nat := 2

structure Options where
  mode : DisplayMode := .inline
  pretty : Bool := false
  /-- one level of indentation in pretty output -/
  indent : String := "  "
  /-- how many blanks a tab stands for -/
  tabWidth : Nat := defaultTabWidth
deriving DecidableEq, Repr

namespace Options

def style (options : Options) : Style :=
  if options.pretty then .pretty options.indent else .compact

end Options
end PlainMath
