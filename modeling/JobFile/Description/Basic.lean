import JobFile.Json.Basic
import JobFile.Value.Basic

/-!
# Job descriptions

* `Node`        : a stanza as data, with the stanzas inside it;
* `Description` : a job as data;
* `Description.json` : its JSON form, in which absent parts are left out.
-/

namespace JobFile

/-- A stanza as data.  What a stanza does not read is kept too, so that it can be refused when the
stanza is known. -/
structure Node where
  stanza : String
  name : Option String := none
  value : Option Value := none
  values : Option (List (String × Value)) := none
  children : List Node := []
  /-- All further members, sorted by key. -/
  fields : List (String × Json) := []

/-- A job as data. -/
structure Description where
  job : String
  stanzas : List Node := []

/-- A member of an object, if it is present. -/
def presentMember {α : Type} (key : String) (json : α → Json) : Option α → List (String × Json)
  | some a => [(key, json a)]
  | none => []

mutual
/-- The JSON form of a node. -/
def Node.json : Node → Json
  | ⟨stanza, name, value, values, children, fields⟩ =>
    let inside := match children with
      | [] => []
      | _ :: _ => [("children", Json.array (Node.allJson children))]
    .object (("stanza", .string stanza) :: (presentMember "name" .string name
      ++ presentMember "value" Value.json value
      ++ presentMember "values" (fun es => .object (Value.entriesJson es)) values
      ++ inside ++ fields))
/-- The JSON forms of several nodes. -/
def Node.allJson : List Node → List Json
  | [] => []
  | n :: ns => n.json :: Node.allJson ns
end

/-- The JSON form of a description. -/
def Description.json (d : Description) : Json :=
  .object [("job", .string d.job), ("stanzas", .array (Node.allJson d.stanzas))]

end JobFile
