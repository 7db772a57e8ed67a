import JobFile.Description.Render

/-!
# Checking descriptions

* `Value.checkItem`, `Value.checkShape` : can a value stand in a list, can it be written by its
  shape?
* `Record.checkChoices`, `Record.checkRequired` : are the fields of a record allowed, and is none
  missing?
* `Config.check`      : do settings suit their driver?
* `Node.check`        : may a node stand in a block of the given keyword, inside a task with the
  given driver?
* `Description.check` : may a description be written?

A check knows of its surroundings only the keyword of the block and the driver.  It reads no text
and no draft, and writes nothing.  A node is first checked by itself, then against its place, and
last against what its block allows and needs; the nodes inside it follow from left to right.
-/

namespace JobFile

/-- Lets a stanza pass in a block of the given keyword if that is one of those allowed. -/
def checkPlace (stanza : String) (allowed : List String) (parent : String) :
    Except Refusal Unit :=
  if parent ∈ allowed then .ok () else .error (.misplaced stanza allowed)

namespace Value

mutual
/-- Refuses what a list of texts cannot hold: doubles and maps, at any depth. -/
def checkItem (field : String) : Value → Except Refusal Unit
  | .list items => checkItems field items
  | .double _ => .error (.unsupportedKind field .double)
  | .map _ => .error (.unsupportedKind field .map)
  | .boolean _ | .integer _ | .text _ => .ok ()
/-- Checks items from left to right. -/
def checkItems (field : String) : List Value → Except Refusal Unit
  | [] => .ok ()
  | v :: vs => do
    v.checkItem field
    checkItems field vs
end

mutual
/-- Refuses what has no shape: doubles outside lists, and what no list can hold. -/
def checkShape (key : String) : Value → Except Refusal Unit
  | .double _ => .error (.unsupportedKind key .double)
  | .list items => checkItems key items
  | .map es => checkShapes es
  | .boolean _ | .integer _ | .text _ => .ok ()
/-- Checks the values of keys in order. -/
def checkShapes : List (String × Value) → Except Refusal Unit
  | [] => .ok ()
  | (k, v) :: es => do
    v.checkShape k
    checkShapes es
end

/-- Refuses what is not a scalar. -/
def checkScalar (field : String) : Value → Except Refusal Unit
  | .boolean _ | .integer _ | .text _ => .ok ()
  | v => .error (.unsupportedKind field v.kind)

/-- Refuses the first value that is not a scalar. -/
def checkScalars : List (String × Value) → Except Refusal Unit
  | [] => .ok ()
  | (k, v) :: es => do
    v.checkScalar k
    checkScalars es

end Value

/-! ## Records -/

/-- Refuses a text that is not among the choices of its field. -/
def Field.checkChoice (f : Field) (value : Option f.kind.Carrier) : Except Refusal Unit :=
  match f with
  | { name, kind := .text, fallback, choices := some allowed, .. } =>
    match value <|> fallback with
    | some s => Field.choose name allowed s
    | none => .ok ()
  | _ => .ok ()

/-- Refuses a required field without a value, in a block of the given keyword. -/
def Field.checkRequired (keyword : String) (f : Field) (value : Option f.kind.Carrier) :
    Except Refusal Unit :=
  if f.required && (f.effective value).isNone then .error (.missingValue keyword f.name)
  else .ok ()

namespace Record

/-- Refuses the first field whose value is not among its choices. -/
def checkChoices : {fs : List Field} → Record fs → Except Refusal Unit
  | [], .nil => .ok ()
  | f :: _, .cons slot rest => do
    f.checkChoice slot.get?
    rest.checkChoices

/-- Refuses the first required field without a value. -/
def checkRequired (keyword : String) : {fs : List Field} → Record fs → Except Refusal Unit
  | [], .nil => .ok ()
  | f :: _, .cons slot rest => do
    f.checkRequired keyword slot.get?
    rest.checkRequired keyword

end Record

namespace Config

/-- Refuses a command that is not there or is not a text. -/
def checkCommand : Option Value → Except Refusal Unit
  | some (.text _) => .ok ()
  | some v => .error (.unsupportedKind "command" v.kind)
  | none => .error (.missingValue keyword "command")

/-- Refuses arguments that no list can hold. -/
def checkArgs : Option Value → Except Refusal Unit
  | some v => v.checkItem "args"
  | none => .ok ()

/-- Refuses settings that do not suit the driver.  The default driver knows a command, which has to
be a text, and its arguments; any other takes what has a shape. -/
def check (driver : String) (values : Entries Value) : Except Refusal Unit :=
  if driver = standardDriver then
    match values.keys.find? (· ∉ defaultKeys) with
    | some key => .error (.unknownField keyword key)
    | none => do
      checkCommand (values.get? "command")
      checkArgs (values.get? "args")
  else Value.checkShapes values

end Config

/-- Refuses a value that is not of the kind of a setting. -/
def Scalar.checkKind (stanza : String) : Scalar → Value → Except Refusal Unit
  | .allAtOnce, .boolean _ | .priority, .integer _ => .ok ()
  | .namespaceName, .text _ | .region, .text _ | .type, .text _ => .ok ()
  | .datacenters, v => v.checkItem stanza
  | _, v => .error (.unsupportedKind stanza v.kind)

/-- Refuses a type that no job has. -/
def Scalar.checkChoice : Scalar → Value → Except Refusal Unit
  | .type, .text s => Field.choose "type" types s
  | _, _ => .ok ()

/-- Refuses an artifact that is not registered, and then one that cannot be written. -/
def Registry.checkPackage (registry : Registry) (parent id : String) : Except Refusal Unit :=
  match registry.get? id with
  | none => .error (.unknownArtifact id)
  | some artifact => do
    checkPlace Stanza.artifact.keyword Stanza.artifact.parents parent
    artifact.checkRequired Stanza.artifact.keyword

/-! ## Nodes -/

namespace Node

/-- The single value of a node, which has to be there. -/
def givenValue (n : Node) : Except Refusal Value :=
  match n.value with
  | some v => .ok v
  | none => .error (.missingValue n.stanza "value")

/-- The text of a value. -/
def givenText (n : Node) (v : Value) : Except Refusal String :=
  match v with
  | .text s => .ok s
  | v => .error (.unsupportedKind n.stanza v.kind)

/-- Refuses a node without a name if its block has to carry one. -/
def checkName (n : Node) (s : Stanza) : Except Refusal Unit :=
  if s.naming = .named && n.name.isNone then .error (.missingValue n.stanza "name") else .ok ()

/-- The settings of a block, once the node itself is in order: a task is asked for its settings
before its name, every other block for its name first, and then for what may not stand in it. -/
def checkedSettings (n : Node) (s : Stanza) : Except Refusal s.Settings := do
  if s = .task then
    let settings ← n.settings s
    n.checkName s
    pure settings
  else
    n.checkName s
    if !s.isContainer then n.withoutChildren
    n.settings s

/-- Checks a node that stands for something without stanzas inside. -/
def checkPlain (registry : Registry) (parent driver : String) (n : Node) :
    Keyword → Except Refusal Unit
  | .scalar s => do
    n.withoutChildren
    n.withoutFields
    let v ← n.givenValue
    s.checkKind n.stanza v
    checkPlace s.keyword Scalar.parents parent
    s.checkChoice v
  | .textMap m => do
    n.withoutChildren
    n.withoutFields
    Value.checkScalars (n.values.getD [])
    checkPlace m.keyword m.parents parent
  | .config => do
    n.withoutChildren
    n.withoutFields
    checkPlace Config.keyword ["task"] parent
    Config.check driver (n.values.getD [])
  | .header => do
    let _ ← n.givenName
    n.withoutChildren
    n.withoutFields
    let v ← n.givenValue
    v.checkItem n.stanza
    checkPlace Header.keyword ["check"] parent
  | .package => do
    n.withoutChildren
    n.withoutFields
    let v ← n.givenValue
    let id ← n.givenText v
    registry.checkPackage parent id
  | .credentials _ => do
    let _ ← n.givenName
    n.withoutChildren
    n.withoutFields
    let v ← n.givenValue
    v.checkItem n.stanza
    checkPlace Stanza.template.keyword Stanza.template.parents parent
  | .job | .block _ => .ok ()

mutual
/-- Checks a node inside a block of the given keyword and a task with the given driver. -/
def check (registry : Registry) (parent driver : String) : Node → Except Refusal Unit
  | ⟨stanza, name, value, values, children, fields⟩ =>
    let n : Node := ⟨stanza, name, value, values, children, fields⟩
    match Keyword.ofText? stanza with
    | some .job => do
      let _ ← n.givenName
      checkPlace "job" [Context.root] parent
      checkAll registry "job" driver children
    | some (.block s) => do
      let settings ← n.checkedSettings s
      checkPlace s.keyword s.parents parent
      settings.checkChoices
      settings.checkRequired s.keyword
      checkAll registry s.keyword (s.driverWithin settings driver) children
    | some keyword => n.checkPlain registry parent driver keyword
    | none => .error (.unknownStanza stanza)
/-- Checks nodes from left to right. -/
def checkAll (registry : Registry) (parent driver : String) : List Node → Except Refusal Unit
  | [] => .ok ()
  | n :: ns => do
    n.check registry parent driver
    checkAll registry parent driver ns
end

end Node

/-- Checks a description: its nodes stand in the block of a job, outside any task. -/
def Description.check (registry : Registry) (d : Description) : Except Refusal Unit :=
  Node.checkAll registry "job" standardDriver d.stanzas

end JobFile
