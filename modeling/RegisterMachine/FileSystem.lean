import RegisterMachine.Text.Quoted

namespace RegisterMachine

inductive Node
  | directory
  | file (content : Array UInt8)
  /-- A device that takes nothing. -/
  | fullDevice
  /-- A device that takes everything and keeps nothing. -/
  | nullDevice
  deriving DecidableEq, Repr

abbrev Location := List String

structure FileSystem where
  nodes : List (Location × Node) := []
  workingDirectory : Location := []
  deriving DecidableEq, Repr

inductive FileError
  | missing
  | notDirectory
  | isDirectory
  | nameTooLong
  | noSpace
  deriving DecidableEq, Repr

namespace FileError

def description : FileError → String
  | missing => "[Errno 2] No such file or directory"
  | notDirectory => "[Errno 20] Not a directory"
  | isDirectory => "[Errno 21] Is a directory"
  | nameTooLong => "[Errno 36] File name too long"
  | noSpace => "[Errno 28] No space left on device"

def report (e : FileError) (path : String) : String := s!"{e.description}: {quoted path}"

end FileError

def maxNameSize : Nat := 255

def pathSizeLimit : Nat := 4096

def pathComponents (path : String) : List String := (path.splitOn "/").filter (· ≠ "")

/-- A path without components that stay where they are, `.` if nothing is left. -/
def plainPath (path : String) : String :=
  let root :=
    if path.startsWith "//" && !path.startsWith "///" then "//"
    else if path.startsWith "/" then "/" else ""
  let text := root ++ "/".intercalate ((pathComponents path).filter (· ≠ "."))
  if text.isEmpty then "." else text

namespace FileSystem

def node? (fs : FileSystem) (location : Location) : Option Node :=
  if location.isEmpty then some .directory else fs.nodes.lookup location

def put (fs : FileSystem) (location : Location) (node : Node) : FileSystem :=
  { fs with nodes := (location, node) :: fs.nodes.filter (·.1 ≠ location) }

def start (fs : FileSystem) (path : String) : Location :=
  if path.startsWith "/" then [] else fs.workingDirectory

def enter (fs : FileSystem) (here : Location) (name : String) : Except FileError Location :=
  match fs.node? here with
  | some .directory =>
    if name = "." then .ok here
    else if name = ".." then .ok here.dropLast
    else if maxNameSize < name.utf8ByteSize then .error .nameTooLong
    else if (fs.node? (here ++ [name])).isSome then .ok (here ++ [name])
    else .error .missing
  | _ => .error .notDirectory

def locate (fs : FileSystem) (path : String) : Except FileError Location :=
  if pathSizeLimit ≤ path.utf8ByteSize then .error .nameTooLong
  else (pathComponents path).foldlM fs.enter (fs.start path)

/-- Opens a path for writing: the location, and the file system in which a regular file there is
empty. The directory of the file must exist; a trailing slash names a directory. -/
def openForWriting (fs : FileSystem) (path : String) :
    Except FileError (FileSystem × Location) :=
  if pathSizeLimit ≤ path.utf8ByteSize then .error .nameTooLong
  else
    let components := pathComponents path
    match components.getLast? with
    | none => .error .isDirectory
    | some name => do
      let parent ← components.dropLast.foldlM fs.enter (fs.start path)
      if fs.node? parent ≠ some .directory then throw .notDirectory
      if name = "." || name = ".." || path.endsWith "/" then throw .isDirectory
      if maxNameSize < name.utf8ByteSize then throw .nameTooLong
      let location := parent ++ [name]
      match fs.node? location with
      | some .directory => throw .isDirectory
      | some .fullDevice | some .nullDevice => return (fs, location)
      | some (.file _) | none => return (fs.put location (.file #[]), location)

end FileSystem

end RegisterMachine
