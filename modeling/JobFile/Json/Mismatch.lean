import JobFile.Json.Basic
import JobFile.Text.Shown

/-!
# Why a text is refused

* `Found`, `Wanted`  : what stands in a text, and what should;
* `Mismatch`         : a text of correct form whose data do not fit;
* `ReadError`        : the form is wrong, or the data are;
* `message`          : the wording of what does not fit;
* `Wording`          : what else is said of an error in a text.
-/

namespace JobFile

/-- What stands in a text. -/
inductive Found where
  | null
  | boolean (b : Bool)
  | integer (i : Int)
  | double (x : Float)
  | text (s : String)
  | sequence
  | map

/-- What stands in a text, in words. -/
def Found.message : Found → String
  | .null => "null"
  | .boolean b => "boolean \x60" ++ toString b ++ "\x60"
  | .integer i => "integer \x60" ++ toString i ++ "\x60"
  | .double x => "floating point \x60" ++ Json.doubleText x ++ "\x60"
  | .text s => "string " ++ Text.shown s
  | .sequence => "sequence"
  | .map => "map"

/-- What should stand in a text. -/
inductive Wanted where
  | text
  | boolean
  | integer
  | sequence
  | map
  | anyValue
  /-- A record of the given name. -/
  | record (name : String)
  deriving DecidableEq, Repr

/-- What should stand in a text, in words. -/
def Wanted.message : Wanted → String
  | .text => "a string"
  | .boolean => "a boolean"
  | .integer => "i64"
  | .sequence => "a sequence"
  | .map => "a map"
  | .anyValue => "a boolean, number, string, list or map"
  | .record name => "struct " ++ name

/-- Why the data of a text do not fit. -/
inductive Mismatch where
  | invalidType (found : Found) (wanted : Wanted)
  /-- A number of the right kind lies out of range. -/
  | invalidValue (found : Found) (wanted : Wanted)
  /-- A record written as an array ends too early. -/
  | invalidLength (length : Nat) (record : String) (size : Nat)
  | unknownField (name : String) (known : List String)
  | missingField (name : String)
  | duplicateField (name : String)

/-- A name as messages cite it. -/
def Mismatch.cite (name : String) : String := "\x60" ++ name ++ "\x60"

/-- The fields that a record knows, in words. -/
def Mismatch.choices : List String → String
  | [] => "there are no fields"
  | [a] => "expected " ++ cite a
  | [a, b] => "expected " ++ cite a ++ " or " ++ cite b
  | names => "expected one of " ++ String.intercalate ", " (names.map cite)

/-- The wording of a mismatch. -/
def Mismatch.message : Mismatch → String
  | .invalidType found wanted =>
    "invalid type: " ++ found.message ++ ", expected " ++ wanted.message
  | .invalidValue found wanted =>
    "invalid value: " ++ found.message ++ ", expected " ++ wanted.message
  | .invalidLength length record size =>
    "invalid length " ++ toString length ++ ", expected struct " ++ record ++ " with "
      ++ toString size ++ " elements"
  | .unknownField name known => "unknown field " ++ cite name ++ ", " ++ choices known
  | .missingField name => "missing field " ++ cite name
  | .duplicateField name => "duplicate field " ++ cite name

/-- Why a text cannot be decoded. -/
inductive ReadError where
  /-- The text has not the form of JSON. -/
  | malformed
  | mismatch (why : Mismatch)

/-- The wording of an error in data that stand in no text.  Their form cannot be wrong
(`Description.isWorded_of_render`), so there are no words for it. -/
def ReadError.dataMessage : ReadError → String
  | .malformed => ""
  | .mismatch why => why.message

/-- What the reader of texts says of an error beside the mismatch itself.  It is left open: all that
is known is that it depends on nothing but the text and the record that the text should hold. -/
structure Wording where
  /-- The words for a text that has not the form of JSON, and for where it breaks. -/
  malformed : (record text : String) → String
  /-- The words for where in a text the mismatch stands. -/
  place : (record text : String) → String

/-- The wording of an error in a text that should hold a record of the given name. -/
def Wording.message (wording : Wording) (record text : String) : ReadError → String
  | .malformed => wording.malformed record text
  | .mismatch why => why.message ++ wording.place record text

end JobFile
