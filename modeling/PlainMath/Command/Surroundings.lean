import PlainMath.Text.Split

/-! What a run of the program can read. Where files and the standard input come from
is left open, so that a run can be studied without a file system: a directory of
files with known contents will do. -/
namespace PlainMath.Command

inductive ReadFault where
  /-- the description and the number that the system gives -/
  | system (description : String) (code : Nat)
  | notText
deriving DecidableEq, Repr

def ReadFault.message : ReadFault → String
  | .system description code => description ++ " (os error " ++ toString code ++ ")"
  | .notText => "stream did not contain valid UTF-8"

namespace ReadFault

def missing : ReadFault := .system "No such file or directory" 2
def notDirectory : ReadFault := .system "Not a directory" 20
def directory : ReadFault := .system "Is a directory" 21
def nameTooLong : ReadFault := .system "File name too long" 36

end ReadFault

/-- The bytes of a file, and whether it lies on a disk. Devices and pipes do not. -/
structure Content where
  bytes : ByteArray
  isRegular : Bool := true

structure Surroundings (m : Type → Type) where
  file : String → m (Except ReadFault Content)
  input : m (Except ReadFault ByteArray)

/-- The names in a path, with empty ones where slashes meet or stand at its ends. -/
def pathNames (path : String) : List String := (Text.splitOn ['/'] path.toList).map String.ofList

def isIdle (name : String) : Bool := name = "" || name = "."

def pathParts (path : String) : List String := (pathNames path).filter (!isIdle ·)

inductive Entry where
  | directory
  | file (content : Content)

/-- Where the directory lies, and its files by their paths from the root. -/
structure Directory where
  place : List String
  files : List (List String × Content)

namespace Directory

def defaultPlace : List String := ["tmp", "work"]

def ofFiles (files : List (String × ByteArray)) : Directory where
  place := defaultPlace
  files := files.map fun file => (defaultPlace ++ pathParts file.1, { bytes := file.2 })

def rootDirectories : List String :=
  ["bin", "boot", "dev", "etc", "home", "lib", "media", "mnt", "opt", "proc", "root", "run",
    "sbin", "srv", "sys", "tmp", "usr", "var"]

/-- An empty file that is always there, and the standard input as a file. -/
def devices (input : ByteArray) : List (List String × Content) :=
  [ (["dev", "null"], ⟨ByteArray.empty, false⟩), (["dev", "stdin"], ⟨input, false⟩) ]

/-- What lies at a place, given by the names from the root. -/
def entry? (directory : Directory) (input : ByteArray) (place : List String) : Option Entry :=
  let files := directory.files ++ devices input
  match files.lookup place with
  | some content => some (.file content)
  | none =>
    if place.isPrefixOf directory.place || files.any (place.isPrefixOf ·.1) ||
        rootDirectories.any (place = [·]) then
      some .directory
    else
      none

def nameLimit : Nat := 255

def pathLimit : Nat := 4095

/-- Follows names from a place, at which there is a given entry. -/
def follow (find : List String → Option Entry) :
    List String → List String → Entry → Except ReadFault Content
  | [], _, .file content => .ok content
  | [], _, .directory => .error .directory
  | _ :: _, _, .file _ => .error .notDirectory
  | name :: names, place, .directory =>
    if isIdle name then
      follow find names place .directory
    else if name = ".." then
      follow find names place.dropLast .directory
    else if nameLimit < name.utf8ByteSize then
      .error .nameTooLong
    else match find (place ++ [name]) with
      | some entry => follow find names (place ++ [name]) entry
      | none => .error .missing

def read (directory : Directory) (input : ByteArray) (path : String) :
    Except ReadFault Content :=
  let start := if path.toList.head? = some '/' then [] else directory.place
  if path = "" then .error .missing
  else if pathLimit < path.utf8ByteSize then .error .nameTooLong
  else follow (directory.entry? input) (pathNames path) start .directory

def surroundings (directory : Directory) (input : ByteArray) : Surroundings Id where
  file path := directory.read input path
  input := .ok input

end Directory
end PlainMath.Command
