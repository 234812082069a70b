import PlainMath.Command.Arguments
import PlainMath.Command.Help
import PlainMath.Command.Surroundings
import PlainMath.Document
import PlainMath.Format
import PlainMath.Settings.Load

/-! A run of the program: the settings are loaded, then the source is read, then it
is compiled. -/
namespace PlainMath.Command

inductive Failure where
  | settings (fault : Settings.Fault)
  | source (name : String) (fault : ReadFault)
  | format (missing : FormatNotFound)

def Failure.message : Failure → String
  | .settings fault => fault.message
  | .source name fault => "Failed to read " ++ name ++ ": " ++ fault.message
  | .format missing => missing.message

inductive Outcome where
  | printed (text : String)
  | failed (failure : Failure)
  /-- the arguments cannot be understood -/
  | misused
  | explained (scope : Scope)

namespace Outcome

def code : Outcome → Nat
  | .printed _ | .explained _ => 0
  | .failed _ => 1
  | .misused => 2

def stdout : Outcome → String
  | .printed text => text
  | .explained scope => scope.help
  | .failed _ | .misused => ""

def report? : Outcome → Option String
  | .failed failure => some ("Error: " ++ failure.message)
  | .misused => some ("Usage: " ++ Scope.program.usage)
  | .printed _ | .explained _ => none

def ofStop : Stop → Outcome
  | .usage => .misused
  | .help scope => .explained scope
  | .version => .printed version

end Outcome

/-- A path without the parts that do not lead anywhere. -/
def plainPath (path : String) : String :=
  let joined := String.intercalate "/" (pathParts path)
  if path.toList.head? = some '/' then "/" ++ joined else joined

/-- A path with an ending behind its last name, unless it has none or leads upwards. -/
def withEnding? (path ending : String) : Option String :=
  match (pathNames path).reverse.dropWhile isIdle with
  | [] => none
  | last :: before =>
    if last = ".." then none
    else some (String.intercalate "/" (before.reverse ++ [last ++ ending]))

/-- Settings that come from the options of a job. -/
def Job.overrides : Job → List Settings.Override
  | .compile inline pretty _ =>
    (if inline then [⟨"output.display", .text "inline"⟩] else []) ++
      (if pretty then [⟨"output.pretty", .text "true"⟩] else [])
  | .render (some delimiter) => [⟨"input.delimiter", .text delimiter⟩]
  | .render none => []

def endLine (text : String) : String :=
  if text.toList.getLast? = some '\n' then text else text ++ "\n"

def Job.perform (settings : Settings) (source : String) : Job → Except Failure String
  | .compile _ _ none => .ok (endLine (PlainMath.compile source settings.options))
  | .compile _ _ (some format) =>
    let registry := Registry.withOptions settings.options
    match registry.write (compileTree source settings.options) format with
    | .ok text => .ok (endLine text)
    | .error missing => .error (.format missing)
  | .render _ => .ok (Document.render source settings.input.delimiter settings.options)

def formatList : String :=
  "Available formats:\n\n" ++ String.join (Registry.standard.formats.map fun format =>
    "  " ++ format.name ++ "\n    " ++ format.description ++ "\n")

section

variable {m : Type → Type} [Monad m]

def regularFile? (surroundings : Surroundings m) (path : String) : m (Option ByteArray) := do
  return match ← surroundings.file path with
    | .ok content => if content.isRegular then some content.bytes else none
    | .error _ => none

/-- A file of settings by its path, or else by its path with an ending. -/
def settingsLayer (surroundings : Surroundings m) (path : String) : m Settings.Layer := do
  let layer (path : String) (bytes : ByteArray) : Settings.Layer :=
    let content := match String.fromUTF8? bytes with
      | some text => .text text.toList
      | none => .notText
    { path := plainPath path, content }
  match ← regularFile? surroundings path with
  | some bytes => return layer path bytes
  | none =>
    match withEnding? path ".toml" with
    | none => return { path, content := .missing }
    | some longer =>
      return match ← regularFile? surroundings longer with
        | some bytes => layer longer bytes
        | none => { path, content := .missing }

def loadSettings (surroundings : Surroundings m) (config? : Option String)
    (overrides : List Settings.Override) : m (Except Failure Settings) := do
  let layers ← config?.toList.mapM (settingsLayer surroundings)
  return (Settings.load layers overrides).mapError .settings

/-- A source as text. A dash stands for the standard input. -/
def readSource (surroundings : Surroundings m) (path : String) : m (Except Failure String) := do
  let name := if path = "-" then "<stdin>" else path
  let bytes ←
    if path = "-" then surroundings.input
    else do pure ((← surroundings.file path).map Content.bytes)
  return match bytes with
    | .error fault => .error (.source name fault)
    | .ok bytes =>
      match String.fromUTF8? bytes with
      | some text => .ok text
      | none => .error (.source name .notText)

/-- Settings are loaded before the source is read. -/
def Job.run (surroundings : Surroundings m) (config? : Option String) (path : String)
    (job : Job) : m Outcome := do
  match ← loadSettings surroundings config? job.overrides with
  | .error failure => return .failed failure
  | .ok settings =>
    match ← readSource surroundings path with
    | .error failure => return .failed failure
    | .ok source =>
      return match job.perform settings source with
        | .ok text => .printed text
        | .error failure => .failed failure

def run (surroundings : Surroundings m) (arguments : List String) : m Outcome :=
  match Invocation.ofArguments arguments with
  | .error stop => return .ofStop stop
  | .ok ⟨_, .listFormats⟩ => return .printed formatList
  | .ok ⟨config?, .source path job⟩ => job.run surroundings config? path

end

end PlainMath.Command
