import JobFile.Json.Decode
import JobFile.Record.Basic

/-!
# Reading records

* `Kind.decode`   : a value of a kind;
* `Form`          : a record of which some fields have been filled in;
* `Record.decode` : reads a record.

A record is written as an object, with its fields in any order, or as an array of its values in
order.  Unknown and repeated fields are refused at their keys, missing ones at the end.
-/

namespace JobFile

/-- Reads a value of a kind. -/
def Kind.decode : (k : Kind) → Reading → Except ReadError k.Carrier
  | .text | .document => Reading.decodeText
  | .integer => Reading.decodeInteger
  | .flag => Reading.decodeFlag
  | .texts => Reading.decodeTexts
  | .textMap => Reading.decodeTextMap

/-- Reads a value that may be absent unless it is mandatory. -/
def Slot.decode {α : Type} (decode : Reading → Except ReadError α) :
    (mandatory : Bool) → Reading → Except ReadError (Slot mandatory α)
  | true, r => decode r
  | false, r => decodeOptional decode r

/-- Reads what a record holds for a field. -/
def Field.decode (f : Field) (r : Reading) : Except ReadError f.Slot :=
  Slot.decode f.kind.decode f.mandatory r

/-- What a field holds that is not filled in; none if it has to be. -/
def Slot.unfilled? {α : Type} : (mandatory : Bool) → Option (Slot mandatory α)
  | true => none
  | false => some none

/-- A record of which some fields have been filled in. -/
inductive Form : List Field → Type where
  | nil : Form []
  | cons {f : Field} {fs : List Field} (filled : Option f.Slot) (rest : Form fs) : Form (f :: fs)

namespace Form

/-- The form of which no field has been filled in. -/
def blank : (fs : List Field) → Form fs
  | [] => .nil
  | _ :: fs => .cons none (blank fs)

/-- Fills in a field with its decoded value, unless it is unknown or has been filled in before. -/
def fill (known : List String) (key : String) (value : Reading) :
    {fs : List Field} → Form fs → Except ReadError (Form fs)
  | [], .nil => .error (.mismatch (.unknownField key known))
  | f :: _, .cons filled rest =>
    if f.name = key then
      match filled with
      | some _ => .error (.mismatch (.duplicateField key))
      | none => (f.decode value).map fun slot => .cons (some slot) rest
    else (rest.fill known key value).map (.cons filled)

/-- The record, if every mandatory field has been filled in. -/
def finish : {fs : List Field} → Form fs → Except ReadError (Record fs)
  | [], .nil => .ok .nil
  | f :: _, .cons filled rest =>
    match filled <|> Slot.unfilled? f.mandatory with
    | some slot => rest.finish.map (.cons slot)
    | none => .error (.mismatch (.missingField f.name))

/-- Fills in the fields of an object up to its end. -/
def fillAll (known : List String) {fs : List Field} (d : Form fs) :
    Members → Except ReadError (Record fs)
  | .close => d.finish
  | .broken | .member none _ _ => .error .malformed
  | .member (some key) value tail => do
    let d ← d.fill known key value
    d.fillAll known tail

end Form

namespace Record

/-- The error for an array that ends before a mandatory field. -/
def tooShort (name : String) (size filled : Nat) : ReadError :=
  .mismatch (.invalidLength filled name size)

/-- The values of a record up to the end of an array.  `filled` counts those before. -/
def decodeItems (name : String) (size : Nat) :
    (fs : List Field) → (filled : Nat) → Items → Except ReadError (Record fs)
  | [], _, .close => .ok .nil
  | [], _, _ => .error .malformed
  | _ :: _, _, .broken => .error .malformed
  | f :: fs, filled, .close =>
    match Slot.unfilled? f.mandatory with
    | some slot => (decodeItems name size fs (filled + 1) .close).map (.cons slot)
    | none => .error (tooShort name size filled)
  | f :: fs, filled, .item head tail => do
    let slot ← f.decode head
    let rest ← decodeItems name size fs (filled + 1) tail
    pure (.cons slot rest)

/-- Reads a record of the given name. -/
def decode (name : String) (fs : List Field) : Reading → Except ReadError (Record fs)
  | .object members => (Form.blank fs).fillAll (fs.map Field.name) members
  | .array items => decodeItems name fs.length fs 0 items
  | r => .error (r.refuse (.record name))

end Record

end JobFile
