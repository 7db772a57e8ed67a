import JobFile.Block.Assign
import JobFile.Catalog.Stanza

/-!
# Writing blocks

* `Stanza.write` : a block of the catalog;
* `Job.write`    : the block of a job;
* `TextMap.write`, `Config.write`, `Header.write` : the blocks whose keys are free.

Each script first checks where it stands, then the choices of its fields, and only then opens its
block.
-/

namespace JobFile

/-- Writes a block with its fields and what stands in it. -/
def Stanza.write (s : Stanza) (label : s.naming.Label) (settings : s.Settings)
    (body : Script := []) : Script :=
  let name := s.naming.label? label
  let content :=
    if s.isShort && settings.isBlank then [.line (headerLine s.keyword name "\x7b\x7d")]
    else [.block s.keyword name ((s.arrange settings.assignments).flatten ++ body)]
  .within s.keyword s.parents :: (settings.check ++ content)

/-- Writes the block of a job, which stands in no other. -/
def Job.write (name : String) (body : Script) : Script :=
  [.within "job" [Context.root], .block "job" (some name) body]

/-- The blocks that hold texts under free keys. -/
inductive TextMap where
  | environment
  | metadata
  deriving DecidableEq, Repr

namespace TextMap

/-- Both blocks. -/
def all : List TextMap := [environment, metadata]

theorem mem_all (m : TextMap) : m ∈ all := by cases m <;> decide

/-- The keyword that opens a block. -/
def keyword : TextMap → String
  | environment => "env"
  | metadata => "meta"

/-- Where a block may stand. -/
def parents : TextMap → List String
  | environment => ["task"]
  | metadata => ["job", "group", "task"]

/-- Writes the entries as a block. -/
def write (m : TextMap) (entries : Entries String) : Script :=
  .within m.keyword m.parents :: Assign.textMap m.keyword entries

end TextMap

namespace Config

/-- The keyword of a driver's settings. -/
def keyword : String := "config"

/-- The keys that the settings of the default driver may have. -/
def defaultKeys : List String := ["command", "args"]

/-- The settings of the default driver: a command, which has to be a text, and its arguments. -/
def writeDefault (values : Entries Value) : Script :=
  match values.keys.find? (· ∉ defaultKeys) with
  | some key => [.fail (.unknownField keyword key)]
  | none =>
    let command := match values.get? "command" with
      | some (.text s) => Assign.text "command" s
      | some v => [.fail (.unsupportedKind "command" v.kind)]
      | none => [.lacking "command"]
    command ++ Assign.optional (Value.assignList "args") (values.get? "args")

/-- Writes the settings of a task's driver.  Those of the default driver are fixed, and those of
any other are written by their shape. -/
def write (driver : String) (values : Entries Value) : Script :=
  let body := if driver = standardDriver then writeDefault values else Value.assignAll values
  [.within keyword ["task"], .block keyword none body]

end Config

namespace Header

/-- The keyword of a header. -/
def keyword : String := "header"

/-- Writes a header of a check, with its values. -/
def write (name : String) (values : List String) : Script :=
  [.within keyword ["check"], .block keyword none (Assign.texts name values)]

end Header

end JobFile
