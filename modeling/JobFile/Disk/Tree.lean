import JobFile.Disk.Basic

/-!
# A disk in memory

* `Tree`         : files and directories under a root;
* `Tree.putFile`, `Tree.putDirectory` : add one, with the directories above it;
* `Tree.at?`     : what stands at a path;
* `Tree.disk`    : answers the questions of `Disk`.

Paths are relative to the root.  A file can be followed neither by a name nor by a slash, and names
and paths have a greatest length.  Of what lies outside the root, this much is known: there is a
directory, and none of its entries.
-/

namespace JobFile

/-- Files and directories. -/
inductive Tree where
  | file (bytes : ByteArray)
  | directory (entries : List (String × Tree))

namespace Tree

/-- The tree without entries. -/
def empty : Tree := .directory []

/-- The entry of a directory. -/
def entry? (name : String) : Tree → Option Tree
  | .directory entries => entries.lookup name
  | .file _ => none

/-- Puts a tree under a path of names.  Directories on the way are made where they are missing. -/
def putAt (t : Tree) : List String → Tree → Tree
  | [], _ => t
  | name :: rest, .directory entries =>
    let inside := (entries.lookup name).getD empty
    .directory ((name, putAt t rest inside) :: entries.filter (·.1 != name))
  | _ :: _, .file bytes => .file bytes

/-- The names in a path, without those that stay in place. -/
def names (path : String) : List String :=
  (path.splitOn "/").filter fun name => name != "" && name != "."

/-- Puts a file under a path. -/
def putFile (path : String) (bytes : ByteArray) (root : Tree) : Tree :=
  putAt (.file bytes) (names path) root

/-- Makes the directories along a path of names where they are missing. -/
def makeAt : List String → Tree → Tree
  | [], t => t
  | name :: rest, .directory entries =>
    let inside := (entries.lookup name).getD empty
    .directory ((name, makeAt rest inside) :: entries.filter (·.1 != name))
  | _ :: _, .file bytes => .file bytes

/-- Puts a directory under a path, unless something is there. -/
def putDirectory (path : String) (root : Tree) : Tree := makeAt (names path) root

/-- The greatest length of a name, in bytes. -/
def maxName : Nat := 255

/-- The greatest length of a path, in bytes. -/
def maxPath : Nat := 4095

/-- The directory around the root, as far as it is known. -/
def outside : Tree := empty

/-- What stands at the end of a path.  `above` holds the directories gone through, the nearest
first. -/
def find (above : List Tree) : Tree → List String → Except DiskError Tree
  | t, [] => .ok t
  | .file _, _ :: _ => .error .notADirectory
  | .directory entries, name :: rest =>
    if name = "" ∨ name = "." then find above (.directory entries) rest
    else if name = ".." then
      match above with
      | t :: above => find above t rest
      | [] => find [] outside rest
    else if maxName < name.utf8ByteSize then .error .nameTooLong
    else
      match entries.lookup name with
      | some t => find (.directory entries :: above) t rest
      | none => .error .noSuchFile

/-- What stands at a path. -/
def at? (root : Tree) (path : String) : Except DiskError Tree :=
  if path.isEmpty then .ok root
  else if maxPath < path.utf8ByteSize then .error .nameTooLong
  else find [] (if path.startsWith "/" then outside else root) (path.splitOn "/")

/-- The names in a directory. -/
def list (root : Tree) (path : String) : Except DiskError (List String) := do
  match ← root.at? path with
  | .directory entries => pure (entries.map Prod.fst)
  | .file _ => throw .notADirectory

/-- The bytes of a file. -/
def read (root : Tree) (path : String) : Except DiskError ByteArray := do
  match ← root.at? path with
  | .file bytes => pure bytes
  | .directory _ => throw .isADirectory

/-- A tree as a disk. -/
def disk (root : Tree) : Disk Id where
  present path := (root.at? path).isOk
  list path := root.list path
  read path := root.read path

end Tree

end JobFile
