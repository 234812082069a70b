import PlainMath.Command.Switch

/-! What the program says about itself. -/
namespace PlainMath.Command

def version : String := "mightymath 0.1.0\n"

namespace Switch

def summary : Switch → String × String
  | .config => ("-c, --config <config>", "TOML file layered over the built-in defaults")
  | .logLevel => ("    --log-level <log-level>",
      "Log verbosity, written to stderr [default: warn] [possible values: " ++
        String.intercalate ", " logLevels ++ "]")
  | .inline => ("    --inline", "Render an inline <math> root instead of a block")
  | .pretty => ("    --pretty", "Indent the emitted markup")
  | .format => ("-f, --format <format>",
      "Output format from the registry (e.g. 'treeviz', 'json')")
  | .delimiter => ("-d, --delimiter <delimiter>", "Marker around notation blocks")
  | .help => ("-h, --help", "Print help")
  | .version => ("-V, --version", "Print version")

end Switch

namespace Scope

def about : Scope → String
  | .program => "Compiles plain-text math notation into MathML"
  | .compile => "Compile a file (or stdin) as one expression"
  | .render => "Compile every delimited block in a document"
  | .listFormats => "List available output formats"

def usage : Scope → String
  | .program => "mightymath [OPTIONS] <COMMAND>"
  | .compile => "mightymath compile [OPTIONS] [path]"
  | .render => "mightymath render [OPTIONS] <path>"
  | .listFormats => "mightymath list-formats [OPTIONS]"

def listed : Scope → List Switch
  | .program => [.config, .logLevel, .help, .version]
  | .compile => [.config, .inline, .logLevel, .pretty, .format, .help]
  | .render => [.config, .delimiter, .logLevel, .help]
  | .listFormats => [.config, .logLevel, .help]

end Scope

/-- Two columns of which the first is as wide as its widest entry. -/
def columns (entries : List (String × String)) : String :=
  let width := entries.foldl (fun width entry => max width entry.1.length) 0
  String.join (entries.map fun entry =>
    "  " ++ entry.1 ++ "".pushn ' ' (width - entry.1.length) ++ "  " ++ entry.2 ++ "\n")

def Scope.subject : Scope → String
  | .program => "\nCommands:\n" ++ columns
      [ ("compile", compile.about), ("render", render.about), ("list-formats", listFormats.about),
        ("help", "Print this message or the help of the given subcommand(s)") ]
  | .compile => "\nArguments:\n" ++ columns
      [("[path]", "Path to the notation file, or '-' for stdin [default: -]")]
  | .render => "\nArguments:\n" ++ columns
      [("<path>", "Path to the document, or '-' for stdin")]
  | .listFormats => ""

def Scope.help (scope : Scope) : String :=
  scope.about ++ "\n\nUsage: " ++ scope.usage ++ "\n" ++ scope.subject ++ "\nOptions:\n" ++
    columns (scope.listed.map Switch.summary)

end PlainMath.Command
