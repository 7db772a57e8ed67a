/-!
# Files

* `Disk`       : what the program asks of a file system;
* `DiskError`  : why it cannot be answered;
* `join`       : the path of an entry of a directory;
* `lastName`   : the name at the end of a path.
-/

namespace JobFile

/-- Why a file or directory cannot be read. -/
inductive DiskError where
  | noSuchFile
  | notADirectory
  | isADirectory
  | nameTooLong
  | notText
  /-- Any other cause, in the words of the system. -/
  | other (words : String)
  deriving DecidableEq, Repr

/-- The wording of a disk error. -/
def DiskError.message : DiskError → String
  | .noSuchFile => "No such file or directory (os error 2)"
  | .notADirectory => "Not a directory (os error 20)"
  | .isADirectory => "Is a directory (os error 21)"
  | .nameTooLong => "File name too long (os error 36)"
  | .notText => "stream did not contain valid UTF-8"
  | .other words => words

/-- What the program asks of a file system.  Paths are texts with slashes. -/
structure Disk (m : Type → Type) where
  /-- Is there anything at the path? -/
  present : String → m Bool
  /-- The names of a directory's entries, in any order. -/
  list : String → m (Except DiskError (List String))
  /-- The bytes of a file. -/
  read : String → m (Except DiskError ByteArray)

namespace Disk

/-- The path of an entry of a directory. -/
def join (directory name : String) : String :=
  if directory.isEmpty || directory.endsWith "/" then directory ++ name
  else directory ++ "/" ++ name

/-- The name at the end of a path. -/
def lastName (path : String) : String :=
  String.ofList (path.toList.reverse.takeWhile (· ≠ '/')).reverse

/-- The text that bytes encode in UTF-8. -/
def text (bytes : ByteArray) : Except DiskError String :=
  match String.fromUTF8? bytes with
  | some s => .ok s
  | none => .error .notText

theorem text_toUTF8 (s : String) : text s.toUTF8 = .ok s := by
  simp only [text, String.fromUTF8?, String.toUTF8_eq_toByteArray, dif_pos s.isValidUTF8]
  rfl

/-- The text of a file. -/
def readText {m : Type → Type} [Monad m] (disk : Disk m) (path : String) :
    m (Except DiskError String) := do
  pure ((← disk.read path) >>= text)

end Disk

end JobFile
