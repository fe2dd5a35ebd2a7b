import PeerGateway.Text.Blank
import PeerGateway.Text.Bytes

/-!
# Files

A small tree of files and folders, `Files`, as far as reading and writing one file needs
it: what is there under a path, making the folders above a path, writing a file. Paths are
the names between slashes; `joinPath` puts a relative path below another.
-/

namespace PeerGateway

/-- Why a file could not be read or written. -/
inductive FileFault
  | notFound
  | alreadyExists
  | notDirectory
  | isDirectory
  | notText
  deriving DecidableEq, Repr

/-- The failure in words. -/
def FileFault.text : FileFault → String
  | .notFound => "No such file or directory (os error 2)"
  | .alreadyExists => "File exists (os error 17)"
  | .notDirectory => "Not a directory (os error 20)"
  | .isDirectory => "Is a directory (os error 21)"
  | .notText => "stream did not contain valid UTF-8"

/-- A path below another: a slash goes between them unless the first one ends in one or is
empty, and a path that starts with a slash stands for itself. -/
def joinPath (base path : String) : String :=
  match path.toList, base.toList.getLast? with
  | '/' :: _, _ => path
  | _, none => path
  | _, some c => if c = '/' then base ++ path else base ++ "/" ++ path

/-- What lies under a path. -/
inductive FileNode
  | folder
  | file (content : Bytes)
  deriving DecidableEq, Repr

/-- Files and folders under the names on the way to them. The root is always a folder. -/
abbrev Files := List (List String × FileNode)

namespace Files

/-- The names of a path, without empty ones and single points. -/
def names (path : String) : List String :=
  ((splitAtChar '/' path.toList).map String.ofList).filter fun n => n != "" && n != "."

/-- Follows names from a place: two points lead back up. Every name on the way but the last
must be a folder. -/
def follow (fs : Files) : List String → List String → Except FileFault (List String)
  | here, [] => .ok here
  | here, name :: rest =>
    match if here.isEmpty then some .folder else fs.lookup here with
    | none => .error .notFound
    | some (.file _) => .error .notDirectory
    | some .folder =>
      if name = ".." then follow fs here.dropLast rest else follow fs (here ++ [name]) rest

/-- What lies at a place. -/
def at? (fs : Files) (place : List String) : Except FileFault FileNode :=
  if place.isEmpty then .ok .folder
  else
    match fs.lookup place with
    | none => .error .notFound
    | some node => .ok node

/-- The failure of making a file under a path that can only lead to a folder, for it ends
in a slash or a point; none for other paths. -/
def folderOnly? (path : String) : Option FileFault :=
  match (splitAtChar '/' path.toList).getLast? with
  | some [] => if path.isEmpty then none else some .isDirectory
  | some ['.'] => some .notFound
  | _ => none

/-- What lies under a path. -/
def find (fs : Files) (path : String) : Except FileFault FileNode := do
  match ← at? fs (← follow fs [] (names path)), folderOnly? path with
  | .file _, some _ => .error .notDirectory
  | node, _ => .ok node

/-- Whether there is something under a path. -/
def has (fs : Files) (path : String) : Bool := (find fs path).toBool

/-- The content of the file under a path. -/
def read (fs : Files) (path : String) : Except FileFault Bytes := do
  match ← find fs path with
  | .folder => .error .isDirectory
  | .file content => .ok content

/-- Makes a folder whose parent is there, unless there is one already. -/
def makeFolder (fs : Files) (above : List String) (name : String) :
    Except FileFault (Files × List String) := do
  match at? fs (← follow fs above [name]) with
  | .ok .folder => .ok (fs, ← follow fs above [name])
  | .ok (.file _) => .error .alreadyExists
  | .error _ => .ok (fs ++ [(above ++ [name], .folder)], above ++ [name])

/-- Makes the folders of a path, from a place on, as far as they are missing. A file in
the way is an error: at the end it is there already, before the end it is no folder. -/
def makeFolders (fs : Files) : List String → List String → Except FileFault Files
  | _, [] => .ok fs
  | here, name :: rest =>
    match makeFolder fs here name with
    | .error e => .error (if rest.isEmpty then e else .notDirectory)
    | .ok (fs, here) => makeFolders fs here rest

/-- Writes a file, in the place of one that is there. -/
def write (fs : Files) (path : String) (content : Bytes) : Except FileFault Files := do
  let place ← follow fs [] (names path)
  match at? fs place, folderOnly? path with
  | .ok .folder, _ => .error .isDirectory
  | .ok (.file _), some _ => .error .notDirectory
  | .error _, some fault => .error fault
  | _, none => .ok ((place, .file content) :: fs.filter (·.1 ≠ place))

end Files

end PeerGateway
