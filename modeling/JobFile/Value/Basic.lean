import JobFile.Entries
import JobFile.Json.Basic

/-!
# Untyped values

* `Value`       : a setting whose kind is not fixed in advance;
* `Value.kind`  : its kind;
* `Value.json`  : its JSON form.
-/

namespace JobFile

/-- A setting of any kind.  Doubles are kept so that they can be refused by name. -/
inductive Value where
  | boolean (b : Bool)
  | integer (i : Int64)
  | double (x : Float)
  | text (s : String)
  | list (items : List Value)
  | map (entries : List (String × Value))

/-- The kind of a value. -/
inductive ValueKind where
  | boolean
  | integer
  | double
  | text
  | list
  | map
  deriving DecidableEq, Repr

/-- The word for a kind. -/
def ValueKind.word : ValueKind → String
  | .boolean => "boolean"
  | .integer => "integer"
  | .double => "float"
  | .text => "string"
  | .list => "list"
  | .map => "map"

namespace Value

/-- The kind of a value. -/
def kind : Value → ValueKind
  | .boolean _ => .boolean
  | .integer _ => .integer
  | .double _ => .double
  | .text _ => .text
  | .list _ => .list
  | .map _ => .map

/-- The text, if the value is one. -/
def text? : Value → Option String
  | .text s => some s
  | _ => none

/-- Texts as a value. -/
def ofTexts (items : List String) : Value := .list (items.map .text)

/-- Integers as a value. -/
def ofIntegers (items : List Int64) : Value := .list (items.map .integer)

mutual
/-- The JSON form of a value. -/
def json : Value → Json
  | .boolean b => .bool b
  | .integer i => Json.ofInt i.toInt
  | .double x => .number (.double x)
  | .text s => .string s
  | .list items => .array (itemsJson items)
  | .map entries => .object (entriesJson entries)
/-- The JSON forms of several values. -/
def itemsJson : List Value → List Json
  | [] => []
  | v :: vs => v.json :: itemsJson vs
/-- The JSON forms of entries. -/
def entriesJson : List (String × Value) → List (String × Json)
  | [] => []
  | (k, v) :: es => (k, v.json) :: entriesJson es
end

end Value

end JobFile
