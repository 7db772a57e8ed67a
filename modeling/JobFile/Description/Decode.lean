import JobFile.Description.Basic
import JobFile.Value.Decode

/-!
# Reading job descriptions

* `Node.decode`        : a node;
* `Description.decode` : a description, written as an object or as an array;
* `Description.parse`  : a whole text.

The five members that every node shares are refused when they are repeated.  All others are kept
as they are, the last of several with one key.
-/

namespace JobFile

/-- A node of which some members have been filled in. -/
structure NodeForm where
  stanza : Option String := none
  name : Option (Option String) := none
  value : Option (Option Value) := none
  values : Option (Option (List (String × Value))) := none
  children : Option (List Node) := none
  fields : List (String × Json) := []

namespace NodeForm

/-- Is a member filled in that may not be repeated? -/
def holds (d : NodeForm) (key : String) : Bool :=
  match key with
  | "stanza" => d.stanza.isSome
  | "name" => d.name.isSome
  | "value" => d.value.isSome
  | "values" => d.values.isSome
  | "children" => d.children.isSome
  | _ => false

/-- Fills in a member other than `children`. -/
def fill (d : NodeForm) (key : String) (value : Reading) : Except ReadError NodeForm := do
  match key with
  | "stanza" => pure { d with stanza := some (← value.decodeText) }
  | "name" => pure { d with name := some (← decodeOptional Reading.decodeText value) }
  | "value" => pure { d with value := some (← decodeOptional Value.decode value) }
  | "values" => pure { d with values := some (← decodeOptional Value.decodeEntries value) }
  | _ => pure { d with fields := Json.insert key (← value.decodeJson) d.fields }

/-- The node, if its stanza has been filled in. -/
def finish (d : NodeForm) : Except ReadError Node :=
  match d.stanza with
  | some stanza =>
    .ok ⟨stanza, d.name.getD none, d.value.getD none, d.values.getD none,
      d.children.getD [], d.fields⟩
  | none => .error (.mismatch (.missingField "stanza"))

end NodeForm

namespace Node

/-- The name under which messages know a node. -/
def recordName : String := "StanzaNode"

mutual
/-- Reads a node. -/
def decode : Reading → Except ReadError Node
  | .object members => decodeMembers {} members
  | r => .error (r.refuse (.record recordName))
/-- Reads the members of a node up to its end. -/
def decodeMembers (d : NodeForm) : Members → Except ReadError Node
  | .close => d.finish
  | .broken | .member none _ _ => .error .malformed
  | .member (some key) value tail =>
    if d.holds key then .error (.mismatch (.duplicateField key))
    else if key = "children" then do
      let children ← decodeList value
      decodeMembers { d with children := some children } tail
    else do
      let d ← d.fill key value
      decodeMembers d tail
/-- Reads a list of nodes. -/
def decodeList : Reading → Except ReadError (List Node)
  | .array items => decodeItems items
  | r => .error (r.refuse .sequence)
/-- Reads nodes up to the end of an array. -/
def decodeItems : Items → Except ReadError (List Node)
  | .close => .ok []
  | .broken => .error .malformed
  | .item head tail => do
    let n ← decode head
    let ns ← decodeItems tail
    pure (n :: ns)
end

end Node

namespace Description

/-- The name under which messages know a description. -/
def recordName : String := "JobDescription"

/-- The members of a description. -/
def fieldNames : List String := ["job", "stanzas"]

/-- Reads the members of a description up to its end. -/
def decodeMembers (job : Option String) (stanzas : Option (List Node)) :
    Members → Except ReadError Description
  | .close =>
    match job with
    | some job => .ok ⟨job, stanzas.getD []⟩
    | none => .error (.mismatch (.missingField "job"))
  | .broken | .member none _ _ => .error .malformed
  | .member (some "job") value tail =>
    if job.isSome then .error (.mismatch (.duplicateField "job"))
    else do
      let job ← value.decodeText
      decodeMembers (some job) stanzas tail
  | .member (some "stanzas") value tail =>
    if stanzas.isSome then .error (.mismatch (.duplicateField "stanzas"))
    else do
      let stanzas ← Node.decodeList value
      decodeMembers job (some stanzas) tail
  | .member (some key) _ _ => .error (.mismatch (.unknownField key fieldNames))

/-- Reads a description whose stanzas are in the second place of an array, if anywhere. -/
def decodeItems : Items → Except ReadError Description
  | .close => .error (.mismatch (.invalidLength 0 recordName 2))
  | .broken => .error .malformed
  | .item job tail => do
    let job ← job.decodeText
    match tail with
    | .close => pure ⟨job, []⟩
    | .broken => throw .malformed
    | .item stanzas tail =>
      let stanzas ← Node.decodeList stanzas
      match tail with
      | .close => pure ⟨job, stanzas⟩
      | _ => throw .malformed

/-- Reads a description. -/
def decode : Reading → Except ReadError Description
  | .object members => decodeMembers none none members
  | .array items => decodeItems items
  | r => .error (r.refuse (.record recordName))

/-- Reads the text of a description. -/
def parse (s : String) : Except ReadError Description := JobFile.parse decode s

end Description

end JobFile
