import JobFile.Description.Render

/-!
# What is chosen freely

* `Chosen`         : a key, or a document;
* `Value.keys`     : the keys in a value, at any depth;
* `Record.chosen`  : the keys of the maps and the documents of a record;
* `Node.chosen`, `Description.chosen` : what the author of a description chooses, and what is
  written as it is: the keys of environments, of metadata and of driver settings, the options of
  artifacts, the names of headers, and the documents.

All other keys come from the catalog, and all other texts are written between quotes.
-/

namespace JobFile

/-- Something that is chosen freely and written without quotes. -/
inductive Chosen where
  | key (key : String)
  /-- A document, without the blanks at its end. -/
  | document (text : String)
  deriving DecidableEq, Repr

namespace Value

mutual
/-- The keys of the maps in a value. -/
def keys : Value → List String
  | .map es => allKeys es
  | _ => []
/-- The keys of entries, and those in their values. -/
def allKeys : List (String × Value) → List String
  | [] => []
  | (k, v) :: es => k :: (v.keys ++ allKeys es)
end

end Value

/-- What is chosen with a value of a kind. -/
def Kind.chosen : (k : Kind) → k.Carrier → List Chosen
  | .document, v => [.document (Text.trimEnd v)]
  | .textMap, v => (Entries.keys v).map .key
  | .text, _ | .integer, _ | .flag, _ | .texts, _ => []

/-- What is chosen with a field. -/
def Field.chosen (f : Field) (value : Option f.kind.Carrier) : List Chosen :=
  match f.effective value with
  | some v => f.kind.chosen v
  | none => []

/-- What is chosen with the fields of a record. -/
def Record.chosen : {fs : List Field} → Record fs → List Chosen
  | [], .nil => []
  | f :: _, .cons slot rest => f.chosen slot.get? ++ rest.chosen

/-- What is chosen with a registered artifact. -/
def Registry.packageChosen (registry : Registry) (id : String) : List Chosen :=
  match registry.get? id with
  | some artifact => artifact.chosen
  | none => []

namespace Node

/-- What is chosen with a node itself. -/
def ownChosen (registry : Registry) (n : Node) : Keyword → List Chosen
  | .textMap _ | .config => (Value.allKeys (n.values.getD [])).map .key
  | .header => n.name.toList.map .key
  | .package =>
    match n.textValue with
    | .ok id => registry.packageChosen id
    | .error _ => []
  | .block s =>
    match n.blockParts s with
    | .ok (_, settings) => settings.chosen
    | .error _ => []
  | .scalar _ | .credentials _ | .job => []

mutual
/-- What is chosen with a node and with those inside it. -/
def chosen (registry : Registry) : Node → List Chosen
  | ⟨stanza, name, value, values, children, fields⟩ =>
    let n : Node := ⟨stanza, name, value, values, children, fields⟩
    let own := match Keyword.ofText? stanza with
      | some keyword => n.ownChosen registry keyword
      | none => []
    own ++ allChosen registry children
/-- What is chosen with several nodes. -/
def allChosen (registry : Registry) : List Node → List Chosen
  | [] => []
  | n :: ns => n.chosen registry ++ allChosen registry ns
end

end Node

/-- What is chosen with a description. -/
def Description.chosen (registry : Registry) (d : Description) : List Chosen :=
  Node.allChosen registry d.stanzas

end JobFile
