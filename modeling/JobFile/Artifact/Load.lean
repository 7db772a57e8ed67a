import JobFile.Artifact.Registry
import JobFile.Disk.Basic

/-!
# Loading artifacts

* `Registry.load` : the artifacts that the files of a directory define;
* `LoadError`     : the first file that cannot be used.

The files are taken in ascending order of their names, so of several definitions with one name the
last file's counts, and of several faults the first file's.
-/

namespace JobFile

/-- Why artifacts cannot be loaded. -/
inductive LoadError where
  | unreadable (path : String) (why : DiskError)
  /-- The text of the file at the path is no definition. -/
  | invalid (path text : String) (why : ReadError)

/-- The wording of a load error. -/
def LoadError.message (wording : Wording) : LoadError → String
  | .unreadable path why => "Failed to read artifacts from " ++ path ++ ": " ++ why.message
  | .invalid path text why =>
    "Invalid artifact definition in " ++ path ++ ": "
      ++ wording.message Definition.recordName text why

namespace Registry

/-- Does a file of this name define an artifact?  The ending alone is no name. -/
def isDefinitionName (name : String) : Bool := name.endsWith ".json" && 5 < name.length

/-- The names of the definitions of a directory, in ascending order. -/
def definitionNames (names : List String) : List String :=
  (names.filter isDefinitionName).mergeSort fun a b => decide (a ≤ b)

/-- Registers what a file defines. -/
def loadFile (r : Registry) (path : String) (content : Except DiskError String) :
    Except LoadError Registry := do
  let text ← content.mapError (.unreadable path)
  let definition ← (parse Definition.decode text).mapError (.invalid path text)
  pure (r.define definition)

variable {m : Type → Type} [Monad m]

/-- Registers what the files of a directory define, in the order given. -/
def loadFiles (disk : Disk m) (directory : String) :
    List String → Registry → m (Except LoadError Registry)
  | [], r => pure (.ok r)
  | name :: rest, r => do
    let path := Disk.join directory name
    match r.loadFile path (← disk.readText path) with
    | .ok r => loadFiles disk directory rest r
    | .error why => pure (.error why)

/-- The artifacts that the files of a directory define.  A directory that is missing defines
none. -/
def load (disk : Disk m) (directory : String) : m (Except LoadError Registry) := do
  if ← disk.present directory then
    match ← disk.list directory with
    | .ok names => loadFiles disk directory (definitionNames names) {}
    | .error why => pure (.error (.unreadable directory why))
  else pure (.ok {})

end Registry

end JobFile
