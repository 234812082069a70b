/-! The options of the command line and where each is known. -/
namespace PlainMath.Command

inductive Scope where
  | program
  | compile
  | render
  | listFormats
deriving DecidableEq, Repr

namespace Scope

def subcommand? (name : String) : Option Scope :=
  if name = "compile" then some .compile
  else if name = "render" then some .render
  else if name = "list-formats" then some .listFormats
  else none

def places : Scope → Nat
  | .compile | .render => 1
  | .program | .listFormats => 0

end Scope

inductive Switch where
  | config
  | logLevel
  | inline
  | pretty
  | format
  | delimiter
  | help
  | version
deriving DecidableEq, Repr

namespace Switch

def long : Switch → String
  | .config => "config"
  | .logLevel => "log-level"
  | .inline => "inline"
  | .pretty => "pretty"
  | .format => "format"
  | .delimiter => "delimiter"
  | .help => "help"
  | .version => "version"

def short? : Switch → Option Char
  | .config => some 'c'
  | .format => some 'f'
  | .delimiter => some 'd'
  | .help => some 'h'
  | .version => some 'V'
  | .logLevel | .inline | .pretty => none

def takesValue : Switch → Bool
  | .config | .logLevel | .format | .delimiter => true
  | .inline | .pretty | .help | .version => false

def logLevels : List String := ["off", "error", "warn", "info", "debug", "trace"]

def accepts (switch : Switch) (value : String) : Bool :=
  match switch with
  | .logLevel => logLevels.contains value
  | _ => true

end Switch

/-- The options of a scope. Some belong to every scope. -/
def Scope.switches : Scope → List Switch
  | .program => [.config, .logLevel, .help, .version]
  | .compile => [.config, .logLevel, .help, .inline, .pretty, .format]
  | .render => [.config, .logLevel, .help, .delimiter]
  | .listFormats => [.config, .logLevel, .help]

def Scope.long? (scope : Scope) (name : List Char) : Option Switch :=
  scope.switches.find? fun switch => switch.long.toList = name

def Scope.short? (scope : Scope) (letter : Char) : Option Switch :=
  scope.switches.find? fun switch => switch.short? = some letter

end PlainMath.Command
