import JobFile.Block.Action
import JobFile.Record.Basic
import JobFile.Text.Blank
import JobFile.Text.Integer
import JobFile.Value.Flatten

/-!
# Assignments

* `Kind.assign`      : assigns a value of a kind to a key;
* `Field.assign`     : assigns what a record holds for a field;
* `Field.choose`     : lets a value pass if it is one of those allowed;
* `Value.assign`     : assigns an untyped value, by its shape;
* `Value.assignList` : assigns an untyped value as a list of texts.

Texts and lists stand as literals on the line of their key, maps as blocks, and documents as lines
of their own up to an end mark.
-/

namespace JobFile

namespace Assign

/-- Assigns a token that is written already. -/
def token (key token : String) : Script := [.line (key ++ " = " ++ token)]

/-- Assigns a text. -/
def text (key value : String) : Script := token key (Text.quote value)

/-- Assigns an integer. -/
def integer (key : String) (value : Int64) : Script := token key (toString value.toInt)

/-- Assigns a truth value. -/
def flag (key : String) (value : Bool) : Script := token key (toString value)

/-- Assigns a list of texts. -/
def texts (key : String) (value : List String) : Script := token key (Text.quoteAll value)

/-- Assigns texts by key, as a block. -/
def textMap (key : String) (value : Entries String) : Script :=
  [.block key none (value.flatMap fun (k, v) => text k v)]

/-- The line that ends a document. -/
def endMark : String := "BLOB"

/-- Assigns a text of several lines, without the blanks at its end. -/
def document (key value : String) : Script :=
  [.line (key ++ " = <<" ++ endMark), .raw (Text.trimEnd value),
    .raw ("\n" ++ endMark ++ "\n")]

/-- Writes a value if there is one. -/
def optional {α : Type} (write : α → Script) : Option α → Script
  | some v => write v
  | none => []

/-- Writes a value that has to be there. -/
def required {α : Type} (key : String) (write : α → Script) : Option α → Script
  | some v => write v
  | none => [.lacking key]

end Assign

/-- Assigns a value of a kind. -/
def Kind.assign (key : String) : (k : Kind) → k.Carrier → Script
  | .text, v => Assign.text key v
  | .document, v => Assign.document key v
  | .integer, v => Assign.integer key v
  | .flag, v => Assign.flag key v
  | .texts, v => Assign.texts key v
  | .textMap, v => Assign.textMap key v

namespace Field

/-- What is written for a field. -/
def effective (f : Field) (value : Option f.kind.Carrier) : Option f.kind.Carrier :=
  value <|> f.fallback

/-- Assigns the value of a field.  An absent one is replaced by the fallback, and if there is none
it is left out unless it is required. -/
def assign (f : Field) (value : Option f.kind.Carrier) : Script :=
  let write := f.kind.assign f.name
  if f.required then Assign.required f.name write (f.effective value)
  else Assign.optional write (f.effective value)

/-- Lets a value pass if it is one of those allowed. -/
def choose (name : String) (allowed : List String) (value : String) : Except Refusal Unit :=
  if value ∈ allowed then .ok () else .error (.invalidChoice name value allowed)

/-- Checks the value of a field against its choices. -/
def check (f : Field) (value : Option f.kind.Carrier) : Script :=
  match f with
  | { name, kind := .text, fallback, choices := some allowed, .. } =>
    Assign.optional (fun s => .ofExcept do choose name allowed s; pure []) (value <|> fallback)
  | _ => []

end Field

namespace Record

/-- The assignments of a record, one script for every field. -/
def assignments : {fs : List Field} → Record fs → List Script
  | [], .nil => []
  | f :: _, .cons slot rest => f.assign slot.get? :: rest.assignments

/-- Checks the fields of a record against their choices. -/
def check : {fs : List Field} → Record fs → Script
  | [], .nil => []
  | f :: _, .cons slot rest => f.check slot.get? ++ rest.check

end Record

namespace Value

/-- Assigns the texts inside a value as one list. -/
def assignList (key : String) (v : Value) : Script :=
  match v.flatten key with
  | .ok items => Assign.texts key items
  | .error why => [.fail why]

mutual
/-- Assigns a value by its shape.  A text that is the decimal form of an integer is written as that
integer, and a map becomes a block. -/
def assign (key : String) : Value → Script
  | .boolean b => Assign.flag key b
  | .integer i => Assign.integer key i
  | .double _ => [.fail (.unsupportedKind key .double)]
  | .text s => if Text.denotesInteger s then Assign.token key s else Assign.text key s
  | .list items => assignList key (.list items)
  | .map entries => [.block key none (assignAll entries)]
/-- Assigns every value to its key. -/
def assignAll : List (String × Value) → Script
  | [] => []
  | (k, v) :: es => v.assign k ++ assignAll es
end

end Value

end JobFile
