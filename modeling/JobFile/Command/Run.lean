import JobFile.Artifact.Load
import JobFile.Command.Arguments
import JobFile.Command.Preferences
import JobFile.Description.Render
import JobFile.Digest.Sha256

/-!
# Carrying out commands

* `Report`       : what a command writes and how it ends;
* `Command.run`  : carries a command out;
* `runArguments` : carries a command line out.

The artifacts are loaded first, then the description is read, and last the document is written.
Whatever fails first is reported, and nothing of the document is shown.

Two things are left open: the words of the reader of texts, which are part of a report, and what is
answered to words that are no command, such as a call for help.
-/

namespace JobFile

/-- The version that envelopes carry. -/
def version : String := "1.0.0"

/-- What a command writes, and the code with which it ends. -/
structure Report where
  code : UInt8
  output : String
  errors : String := ""
  deriving DecidableEq, Repr

namespace Report

/-- A JSON value on a line of its own, with the members of every object sorted. -/
def jsonLine (j : Json) : String := j.sorted.text ++ "\n"

/-- A failure. -/
def failure (code : UInt8) (message : String) : Report :=
  { code, output := jsonLine (.object [("success", .bool false), ("error", .string message)]) }

end Report

/-- The wording of a failure to write a document. -/
def Failure.message : Failure → String
  | .refused why => why.message
  | .breached why => why.message

/-- The envelope of a document. -/
def envelope (job document : String) : Json :=
  .object [("success", .bool true), ("job", .string job), ("engine_version", .string version),
    ("document_hash", .string (fingerprint document)), ("document", .string document)]

/-- The artifacts of a registry as JSON. -/
def Registry.json (r : Registry) : Json :=
  .array (r.artifacts.map fun (id, artifact) =>
    .object [("id", .string id), ("artifact", artifact.json)])

namespace Request

variable (wording : Wording)

/-- Reads a description from the text of its file. -/
def description (path : String) (content : Except DiskError String) :
    Except String Description := do
  let text ← content.mapError fun why => "Failed to read " ++ path ++ ": " ++ why.message
  (Description.parse text).mapError fun why =>
    "Invalid job description: " ++ wording.message Description.recordName text why

/-- Reads a description, writes its document, and reports on both. -/
def withDocument (registry : Registry) (path : String) (content : Except DiskError String)
    (report : Description → String → Report) : Report :=
  match description wording path content with
  | .error message => .failure 1 message
  | .ok d =>
    match d.render registry with
    | .error why => .failure 2 why.message
    | .ok document => report d document

/-- The report on a rendered document. -/
def renderReport (json echo : Bool) (d : Description) (document : String) : Report :=
  { code := 0
    output := if json then Report.jsonLine (envelope d.job document) else document
    errors := if echo then document else "" }

variable {m : Type → Type} [Monad m]

/-- Carries a request out. -/
def run (disk : Disk m) (registry : Registry) : Request → m Report
  | .artifacts => pure { code := 0, output := Report.jsonLine registry.json }
  | .render input json echo => do
    pure (withDocument wording registry input (← disk.readText input) (renderReport json echo))
  | .hash input => do
    pure (withDocument wording registry input (← disk.readText input)
      fun _ document => { code := 0, output := fingerprint document ++ "\n" })

end Request

variable {m : Type → Type} [Monad m]

/-- Carries a command out. -/
def Command.run (wording : Wording) (disk : Disk m) (c : Command) : m Report := do
  match ← Registry.load disk c.directory with
  | .ok registry => c.request.run wording disk registry
  | .error why => pure (.failure 1 ("Failed to load artifacts: " ++ why.message wording))

/-- Carries a command line out.  `otherwise` answers words that are no command. -/
def runArguments (wording : Wording) (otherwise : List String → Report) (disk : Disk m)
    (ws : List String) : m Report :=
  match Command.ofArguments? ws with
  | some c => c.run wording disk
  | none => pure (otherwise ws)

end JobFile
