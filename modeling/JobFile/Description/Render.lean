import JobFile.Artifact.Registry
import JobFile.Block.Trace
import JobFile.Description.Decode
import JobFile.Description.Keyword

/-!
# Writing job descriptions

* `Node.script`         : what a node writes, inside a task with the given driver;
* `Description.script`  : what a description writes;
* `Description.render`  : the document of a description.

A node is checked by itself first: what it may not carry, what it has to carry, and whether its
settings can be read.  Only then is it checked against the block in which it stands.
-/

namespace JobFile

namespace Node

/-- The error for a member that the stanza does not know. -/
def unknownMember (n : Node) (field : String) : Refusal := .unknownField n.stanza field

/-- Refuses stanzas inside the node. -/
def withoutChildren (n : Node) : Except Refusal Unit :=
  if n.children.isEmpty then .ok () else .error (n.unknownMember "children")

/-- Refuses further members. -/
def withoutFields (n : Node) : Except Refusal Unit :=
  match n.fields with
  | [] => .ok ()
  | (key, _) :: _ => .error (n.unknownMember key)

/-- The settings of a block, from the further members. -/
def settings (n : Node) (s : Stanza) : Except Refusal s.Settings :=
  (Record.decode s.recordName s.fields (Json.object n.fields).reading).mapError
    (.invalidOptions n.stanza)

/-- The name of the node, which has to be there. -/
def givenName (n : Node) : Except Refusal String :=
  match n.name with
  | some name => .ok name
  | none => .error (.missingValue n.stanza "name")

/-- The name on a block. -/
def label (n : Node) (s : Stanza) : Except Refusal s.naming.Label :=
  match s.naming.ofName? n.name with
  | some label => .ok label
  | none => .error (.missingValue n.stanza "name")

/-- The name and the settings of a block.  A task is asked for its settings first, every other
block for its name.  Blocks that hold no stanzas refuse them in between. -/
def blockParts (n : Node) (s : Stanza) : Except Refusal (s.naming.Label × s.Settings) := do
  if s = .task then
    let settings ← n.settings s
    let label ← n.label s
    pure (label, settings)
  else
    let label ← n.label s
    if !s.isContainer then n.withoutChildren
    let settings ← n.settings s
    pure (label, settings)

/-- The single value of the node, which carries nothing else. -/
def scalarValue (n : Node) : Except Refusal Value := do
  n.withoutChildren
  n.withoutFields
  match n.value with
  | some v => pure v
  | none => throw (.missingValue n.stanza "value")

/-- The error for a value of the wrong kind. -/
def wrongKind (n : Node) (v : Value) : Refusal := .unsupportedKind n.stanza v.kind

/-- The single value of the node, as a text. -/
def textValue (n : Node) : Except Refusal String := do
  let v ← n.scalarValue
  match v.text? with
  | some s => pure s
  | none => throw (n.wrongKind v)

/-- The single value of the node, as a list of texts. -/
def textsValue (n : Node) : Except Refusal (List String) := do
  let v ← n.scalarValue
  v.flatten n.stanza

/-- The single value of the node, as a setting of the job. -/
def scalarSetting (n : Node) : (s : Scalar) → Except Refusal s.kind.Carrier
  | .allAtOnce => do
    match ← n.scalarValue with
    | .boolean b => pure b
    | v => throw (n.wrongKind v)
  | .priority => do
    match ← n.scalarValue with
    | .integer i => pure i
    | v => throw (n.wrongKind v)
  | .datacenters => n.textsValue
  | .namespaceName | .region | .type => n.textValue

/-- The values by key of the node, which carries nothing else. -/
def entries (n : Node) : Except Refusal (Entries Value) := do
  n.withoutChildren
  n.withoutFields
  pure (n.values.getD [])

/-- Scalars by key, as texts. -/
def scalarTexts : Entries Value → Except Refusal (Entries String)
  | [] => .ok []
  | (k, v) :: es => do
    let s ← v.scalar k
    let rest ← scalarTexts es
    pure ((k, s) :: rest)

/-- The values by key of the node, as texts. -/
def textEntries (n : Node) : Except Refusal (Entries String) := do
  scalarTexts (← n.entries)

/-- What a node writes that stands for something without stanzas inside. -/
def plainScript (registry : Registry) (driver : String) (n : Node) : Keyword → Script
  | .scalar s => .ofExcept do pure (s.write (← n.scalarSetting s))
  | .textMap m => .ofExcept do pure (m.write (← n.textEntries))
  | .config => .ofExcept do pure (Config.write driver (← n.entries))
  | .header => .ofExcept do
    let name ← n.givenName
    pure (Header.write name (← n.textsValue))
  | .package => .ofExcept do pure (registry.package (← n.textValue))
  | .credentials c => .ofExcept do
    let name ← n.givenName
    pure (c.write name (← n.textsValue))
  | .job | .block _ => []

mutual
/-- What a node writes inside a task with the given driver. -/
def script (registry : Registry) (driver : String) : Node → Script
  | ⟨stanza, name, value, values, children, fields⟩ =>
    let n : Node := ⟨stanza, name, value, values, children, fields⟩
    match Keyword.ofText? stanza with
    | some .job =>
      match n.givenName with
      | .ok name => Job.write name (scripts registry driver children)
      | .error why => [.fail why]
    | some (.block s) =>
      match n.blockParts s with
      | .ok (label, settings) =>
        s.write label settings (scripts registry (s.driverWithin settings driver) children)
      | .error why => [.fail why]
    | some keyword => n.plainScript registry driver keyword
    | none => [.fail (.unknownStanza stanza)]
/-- What several nodes write, one after the other. -/
def scripts (registry : Registry) (driver : String) : List Node → Script
  | [] => []
  | n :: ns => n.script registry driver ++ scripts registry driver ns
end

end Node

namespace Description

/-- What a description writes. -/
def script (registry : Registry) (d : Description) : Script :=
  Job.write d.job (Node.scripts registry standardDriver d.stanzas)

/-- The document of a description. -/
def render (registry : Registry) (d : Description) : Except Failure String :=
  (d.script registry).document

end Description

end JobFile
