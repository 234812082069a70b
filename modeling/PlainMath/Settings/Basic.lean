import PlainMath.Options

/-! The settings of the program: how markup is written and how sources are read. -/
namespace PlainMath

namespace Settings

structure Output where
  display : DisplayMode := .block
  pretty : Bool := false
  indent : String := "  "
deriving DecidableEq, Repr

structure Input where
  tabWidth : Nat := defaultTabWidth
  /-- what stands before and after notation in a document -/
  delimiter : String := "###"
deriving DecidableEq, Repr

end Settings

structure Settings where
  output : Settings.Output := {}
  input : Settings.Input := {}
deriving DecidableEq, Repr

def Settings.options (settings : Settings) : Options where
  mode := settings.output.display
  pretty := settings.output.pretty
  indent := settings.output.indent
  tabWidth := settings.input.tabWidth

end PlainMath
