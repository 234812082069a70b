import PlainMath.Command.Run

/-! The program: reads files and the standard input, prints, and exits. -/
namespace PlainMath

/-- What the system says about a file. Its number may come with a minus. -/
def systemFault (code : UInt32) (details : String) : Command.ReadFault :=
  .system details.capitalize (if code < 0x80000000 then code.toNat else (-code).toNat)

def fileFault : IO.Error → Command.ReadFault
  | .noFileOrDirectory _ code details => systemFault code details
  | .inappropriateType _ code details => systemFault code details
  | .permissionDenied _ code details => systemFault code details
  | .invalidArgument _ code details => systemFault code details
  | .resourceExhausted _ code details => systemFault code details
  | .otherError code details => systemFault code details
  | error => systemFault 5 (toString error)

def readFile (path : String) : IO (Except Command.ReadFault Command.Content) := do
  try
    return .ok { bytes := ← IO.FS.readBinFile path }
  catch error =>
    return .error (fileFault error)

def readInput : IO (Except Command.ReadFault ByteArray) := do
  try
    return .ok (← (← IO.getStdin).readBinToEnd)
  catch error =>
    return .error (fileFault error)

end PlainMath

def main (arguments : List String) : IO UInt32 := do
  let outcome ← PlainMath.Command.run ⟨PlainMath.readFile, PlainMath.readInput⟩ arguments
  IO.print outcome.stdout
  match outcome.report? with
  | some line => IO.eprintln line
  | none => pure ()
  return UInt32.ofNat outcome.code
