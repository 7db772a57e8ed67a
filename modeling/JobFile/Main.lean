import JobFile.Command.Run

/-!
# The program

The only module that touches the file system: it answers the questions of `Disk` by it, carries
out the command line, and writes the report.  What carrying out leaves open is answered as plainly
as can be.
-/

namespace JobFile

/-- What the system says about a failure. -/
def DiskError.ofIO (e : IO.Error) : DiskError :=
  match e with
  | .noFileOrDirectory .. => .noSuchFile
  | .noSuchThing .. => .noSuchFile
  | .permissionDenied .. => .other "Permission denied (os error 13)"
  | e =>
    let words := toString e
    if (words.splitOn "not a directory").length > 1 then .notADirectory
    else if (words.splitOn "is a directory").length > 1 then .isADirectory
    else if (words.splitOn "name too long").length > 1 then .nameTooLong
    else .other words

/-- Answers with a value or with what went wrong. -/
def attempt {α : Type} (action : IO α) : IO (Except DiskError α) := do
  try pure (.ok (← action)) catch e => pure (.error (.ofIO e))

/-- Plain words for what is left open: that a text has not the form of JSON, but not where. -/
def plainWording : Wording := ⟨fun _ _ => "malformed JSON", fun _ _ => ""⟩

/-- Words that are no command are answered by a code alone, calls for help among them. -/
def noCommand (_ : List String) : Report := { code := 2, output := "" }

/-- The file system. -/
def fileSystem : Disk IO where
  present path := (System.mkFilePath [path]).pathExists
  list path := attempt do
    let entries ← (System.mkFilePath [path]).readDir
    pure (entries.toList.map fun entry => entry.fileName)
  read path := do
    let path := System.mkFilePath [path]
    if ← path.isDir then pure (.error .isADirectory)
    else attempt (IO.FS.readBinFile path)

end JobFile

/-- Carries out the command line and writes the report. -/
def main (args : List String) : IO UInt32 := do
  let report ← JobFile.runArguments JobFile.plainWording JobFile.noCommand JobFile.fileSystem args
  (← IO.getStdout).putStr report.output
  (← IO.getStderr).putStr report.errors
  pure report.code.toUInt32
