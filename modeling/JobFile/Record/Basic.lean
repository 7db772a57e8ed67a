import JobFile.Entries
import JobFile.Json.Basic

/-!
# Records of named fields

* `Kind`, `Field` : what a field holds, and how it is read and written;
* `Record`        : one value for every field of a list, absent where that is allowed;
* `Record.blank`  : the record with nothing set;
* `Record.json`   : a record as a JSON object, every field in order.
-/

namespace JobFile

/-- What a field holds. -/
inductive Kind where
  | text
  /-- A text of any number of lines. -/
  | document
  | integer
  | flag
  | texts
  | textMap
  deriving DecidableEq, Repr

/-- The values of a kind. -/
abbrev Kind.Carrier : Kind → Type
  | .text | .document => String
  | .integer => Int64
  | .flag => Bool
  | .texts => List String
  | .textMap => Entries String

/-- A value as JSON. -/
def Kind.json : (k : Kind) → k.Carrier → Json
  | .text, s | .document, s => .string s
  | .integer, i => Json.ofInt i.toInt
  | .flag, b => .bool b
  | .texts, items => Json.ofTexts items
  | .textMap, es => .object (es.map fun (k, s) => (k, .string s))

/-- A field of a record. -/
structure Field where
  name : String
  kind : Kind
  /-- Is a record without the field refused on reading? -/
  mandatory : Bool := false
  /-- Is a block without the field refused on writing? -/
  required : Bool := false
  /-- What is written for an absent value. -/
  fallback : Option kind.Carrier := none
  /-- The texts that are allowed, if not all are. -/
  choices : Option (List String) := none

/-- A value that may be absent unless it is mandatory. -/
abbrev Slot (mandatory : Bool) (α : Type) : Type :=
  match mandatory with
  | true => α
  | false => Option α

/-- The value in a slot. -/
def Slot.get? {α : Type} : {mandatory : Bool} → Slot mandatory α → Option α
  | true, a => some a
  | false, a => a

/-- What a record holds for a field. -/
abbrev Field.Slot (f : Field) : Type := JobFile.Slot f.mandatory f.kind.Carrier

/-- A value for every field of a list. -/
inductive Record : List Field → Type where
  | nil : Record []
  | cons {f : Field} {fs : List Field} (slot : f.Slot) (rest : Record fs) : Record (f :: fs)

namespace Record

/-- The record with nothing set. -/
def blank : (fs : List Field) → (∀ f ∈ fs, f.mandatory = false) → Record fs
  | [], _ => .nil
  | f :: fs, h =>
    have hf : Option f.kind.Carrier = f.Slot := by
      show _ = JobFile.Slot f.mandatory _
      rw [h f List.mem_cons_self]
    .cons (cast hf none) (blank fs fun g hg => h g (List.mem_cons_of_mem f hg))

/-- The names of the fields with their values as JSON, null where there is none. -/
def members : {fs : List Field} → Record fs → List (String × Json)
  | [], .nil => []
  | f :: _, .cons slot rest =>
    (f.name, (slot.get?.map f.kind.json).getD .null) :: rest.members

/-- A record as a JSON object, every field in order. -/
def json {fs : List Field} (r : Record fs) : Json := .object r.members

/-- Is nothing set? -/
def isBlank : {fs : List Field} → Record fs → Bool
  | [], .nil => true
  | _ :: _, .cons slot rest => slot.get?.isNone && rest.isBlank

end Record

end JobFile
