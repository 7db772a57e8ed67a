import JobFile.Catalog.Write
import JobFile.Record.Decode

/-!
# Registered artifacts

* `Definition`          : an artifact with the name under which it is registered;
* `Registry`            : artifacts by name, sorted;
* `Registry.register`, `Registry.get?` : add one and look one up;
* `Registry.package`    : writes a registered artifact.
-/

namespace JobFile

/-- The settings of an artifact block. -/
abbrev Artifact : Type := Stanza.artifact.Settings

/-- An artifact and its name. -/
structure Definition where
  id : String
  artifact : Artifact

namespace Definition

/-- The name under which messages know a definition. -/
def recordName : String := "ArtifactDefinition"

/-- The fields of a definition. -/
def fields : List Field :=
  [{ name := "id", kind := .text, mandatory := true },
    { name := "source", kind := .text, mandatory := true },
    Stanza.field .text "destination", Stanza.field .text "mode",
    Stanza.field .textMap "options"]

/-- The definition that a record holds. -/
def ofRecord : Record fields → Definition
  | .cons id (.cons source (.cons destination (.cons mode (.cons options .nil)))) =>
    ⟨id, .cons (some source) (.cons destination (.cons mode (.cons options .nil)))⟩

/-- Reads a definition. -/
def decode (r : Reading) : Except ReadError Definition :=
  (Record.decode recordName fields r).map ofRecord

end Definition

/-- Artifacts by name, in ascending order of the names. -/
structure Registry where
  artifacts : List (String × Artifact) := []

namespace Registry

/-- Registers an artifact.  It replaces one of the same name. -/
def register (r : Registry) (id : String) (artifact : Artifact) : Registry :=
  ⟨Json.insert id artifact r.artifacts⟩

/-- Registers an artifact under the name that it is defined with. -/
def define (r : Registry) (d : Definition) : Registry := r.register d.id d.artifact

/-- The artifact of a name. -/
def get? (r : Registry) (id : String) : Option Artifact := r.artifacts.lookup id

/-- The number of artifacts. -/
def size (r : Registry) : Nat := r.artifacts.length

/-- Writes a registered artifact.  Its name is looked up before anything else. -/
def package (r : Registry) (id : String) : Script :=
  match r.get? id with
  | some artifact => Stanza.artifact.write () artifact
  | none => [.fail (.unknownArtifact id)]

end Registry

end JobFile
