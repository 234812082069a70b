import PlainMath.Command.Switch

/-! The arguments of the program. They are read from left to right: options with
their values, arguments at places of their own, and one subcommand, behind which
come the arguments of its own scope. -/
namespace PlainMath.Command

inductive Job where
  | compile (inline pretty : Bool) (format? : Option String)
  | render (delimiter? : Option String)
deriving DecidableEq, Repr

inductive Request where
  | source (path : String) (job : Job)
  | listFormats
deriving DecidableEq, Repr

structure Invocation where
  /-- a file of settings -/
  config? : Option String
  request : Request
deriving DecidableEq, Repr

inductive Stop where
  | usage
  | help (scope : Scope)
  | version
deriving DecidableEq, Repr

structure Found where
  switches : List (Switch × String) := []
  places : List String := []
  /-- the latest option, if its value is in the argument behind it; the value is
  judged when the next option or the end has been reached -/
  latest : Option (Switch × Option String) := none
  /-- whether two dashes have put an end to options -/
  escaped : Bool := false

namespace Found

def value? (found : Found) (switch : Switch) : Option String := found.switches.lookup switch

def has (found : Found) (switch : Switch) : Bool := (found.value? switch).isSome

/-- Whether the next argument is the value of an option. -/
def waits (found : Found) : Bool := found.latest.any fun option => option.2.isNone

/-- An option may be given once. -/
def give (found : Found) (switch : Switch) (value : String) : Except Stop Found :=
  if found.has switch || !switch.accepts value then .error .usage
  else .ok { found with switches := (switch, value) :: found.switches }

/-- Judges the latest option. -/
def settle (found : Found) : Except Stop Found :=
  match found.latest with
  | none => .ok found
  | some (_, none) => .error .usage
  | some (switch, some value) => { found with latest := none }.give switch value

def await (found : Found) (switch : Switch) : Except Stop Found := do
  return { ← found.settle with latest := some (switch, none) }

def giveAttached (found : Found) (switch : Switch) (value : List Char) : Except Stop Found := do
  (← found.settle).give switch (String.ofList value)

def flag (found : Found) (scope : Scope) (switch : Switch) : Except Stop Found := do
  let found ← found.settle
  match switch with
  | .help => .error (.help scope)
  | .version => .error .version
  | _ => found.give switch ""

def place (found : Found) (scope : Scope) (argument : String) : Except Stop Found := do
  let found ← found.settle
  if scope.places ≤ found.places.length then .error .usage
  else return { found with places := found.places ++ [argument] }

/-- An option behind two dashes. Its value is behind an equals sign or in the next
argument. -/
def long (found : Found) (scope : Scope) (text : List Char) : Except Stop Found :=
  match scope.long? (text.takeWhile (· ≠ '=')), text.dropWhile (· ≠ '=') with
  | none, _ => .error .usage
  | some switch, [] => if switch.takesValue then found.await switch else found.flag scope switch
  | some switch, _ :: value =>
    if switch.takesValue then found.giveAttached switch value else .error .usage

/-- What stands behind the letter of an option, perhaps after an equals sign. -/
def attached : List Char → List Char
  | '=' :: value => value
  | value => value

/-- Options behind one dash. The first that takes a value takes all that follows. -/
def short (scope : Scope) : List Char → Found → Except Stop Found
  | [], found => .ok found
  | letter :: rest, found =>
    match scope.short? letter with
    | none => .error .usage
    | some switch =>
      if switch.takesValue then
        if rest = [] then found.await switch else found.giveAttached switch (attached rest)
      else do
        let found ← found.flag scope switch
        short scope rest found

/-- The value of the latest option, or an argument at a place of its own. -/
def plain (found : Found) (scope : Scope) (argument : String) : Except Stop Found :=
  match found.latest with
  | some (switch, none) => .ok { found with latest := some (switch, some argument) }
  | _ => found.place scope argument

/-- The next argument. A value in an argument of its own may not start with a dash,
unless it is nothing else. -/
def add (found : Found) (scope : Scope) (argument : String) : Except Stop Found :=
  if found.escaped then
    found.place scope argument
  else match argument.toList with
    | ['-', '-'] => .ok { found with escaped := true }
    | '-' :: '-' :: text => found.long scope text
    | '-' :: letter :: text => short scope (letter :: text) found
    | _ => found.plain scope argument

end Found

def readScope (scope : Scope) (arguments : List String) : Except Stop Found := do
  let found ← arguments.foldlM (fun (found : Found) argument => found.add scope argument) {}
  found.settle

def helpOn : List String → Stop
  | [] => .help .program
  | ["help"] => .help .program
  | [name] => (Scope.subcommand? name).elim .usage .help
  | _ => .usage

/-- The arguments up to the subcommand, the subcommand, and its arguments. What stands
behind the subcommand is read before the latest option in front of it is judged. -/
def readProgram (found : Found) : List String → Except Stop (Found × Scope × Found)
  | [] => .error .usage
  | argument :: rest =>
    let isFree := !found.escaped && !found.waits
    let subcommand? := if isFree then Scope.subcommand? argument else none
    match subcommand? with
    | some scope => do
      let behind ← readScope scope rest
      return (← found.settle, scope, behind)
    | none =>
      if isFree && argument = "help" then .error (helpOn rest)
      else do readProgram (← found.add .program argument) rest

def toRequest (scope : Scope) (found : Found) : Except Stop Request :=
  match scope, found.places with
  | .compile, places =>
    if found.has .inline && found.has .format then
      .error .usage
    else
      .ok (.source (places.headD "-")
        (.compile (found.has .inline) (found.has .pretty) (found.value? .format)))
  | .render, [path] => .ok (.source path (.render (found.value? .delimiter)))
  | .listFormats, _ => .ok .listFormats
  | .render, _ | .program, _ => .error .usage

/-- Reads the arguments. A file of settings that is named behind the subcommand is
preferred to one that is named before it. -/
def Invocation.ofArguments (arguments : List String) : Except Stop Invocation := do
  let (before, scope, behind) ← readProgram {} arguments
  let request ← toRequest scope behind
  return { config? := (behind.value? .config).or (before.value? .config), request }

end PlainMath.Command
