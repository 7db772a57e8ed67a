import JobFile.Entries
import JobFile.Json.Mismatch
import JobFile.Json.Reading

/-!
# Decoding

* `Reading.refuse`  : the error for a value of the wrong kind;
* `decodeText`, `decodeInteger`, `decodeFlag`, `decodeTexts`, `decodeTextMap`,
  `decodeJson`      : the value of a reading, or the first error in reading order;
* `parse`           : decodes a whole text.

A container of the wrong kind is refused at its opening bracket, without a look inside.
-/

namespace JobFile

/-- Containers may be nested this deep. -/
def maxDepth : Nat := 127

namespace Reading

/-- What a reading shows at its first character; none if its form is wrong. -/
def found? : Reading → Option Found
  | .null => some .null
  | .bool b => some (.boolean b)
  | .number (.integer i _) => some (.integer i)
  | .number (.double x) => some (.double x)
  | .string s => some (.text s)
  | .array _ => some .sequence
  | .object _ => some .map
  | .meaningless | .broken => none

/-- The error for a reading of the wrong kind. -/
def refuse (wanted : Wanted) (r : Reading) : ReadError :=
  match r.found? with
  | some found => .mismatch (.invalidType found wanted)
  | none => .malformed

/-- A text. -/
def decodeText : Reading → Except ReadError String
  | .string s => .ok s
  | r => .error (r.refuse .text)

/-- A truth value. -/
def decodeFlag : Reading → Except ReadError Bool
  | .bool b => .ok b
  | r => .error (r.refuse .boolean)

/-- An integer of 64 bits.  Reading bounds it from below already. -/
def decodeInteger : Reading → Except ReadError Int64
  | .number (.integer i _) =>
    if i < 0x8000000000000000 then .ok (Int64.ofInt i)
    else .error (.mismatch (.invalidValue (.integer i) .integer))
  | r => .error (r.refuse .integer)

/-- Texts up to the end of an array. -/
def decodeTextItems : Items → Except ReadError (List String)
  | .close => .ok []
  | .broken => .error .malformed
  | .item head tail => do
    let s ← decodeText head
    let ss ← decodeTextItems tail
    pure (s :: ss)

/-- A list of texts. -/
def decodeTexts : Reading → Except ReadError (List String)
  | .array items => decodeTextItems items
  | r => .error (r.refuse .sequence)

/-- Texts by key up to the end of an object, put into those before them. -/
def decodeTextMembers (before : Entries String) : Members → Except ReadError (Entries String)
  | .close => .ok before
  | .broken | .member none _ _ => .error .malformed
  | .member (some key) value tail => do
    let s ← decodeText value
    decodeTextMembers (before.put key s) tail

/-- Texts by key. -/
def decodeTextMap : Reading → Except ReadError (Entries String)
  | .object members => decodeTextMembers [] members
  | r => .error (r.refuse .map)

mutual
/-- Any JSON value, with the members of every object sorted by key. -/
def decodeJson : Reading → Except ReadError Json
  | .null => .ok .null
  | .bool b => .ok (.bool b)
  | .number n => .ok (.number n)
  | .string s => .ok (.string s)
  | .array items => (decodeJsonItems items).map .array
  | .object members => (decodeJsonMembers [] members).map .object
  | .meaningless | .broken => .error .malformed
/-- JSON values up to the end of an array. -/
def decodeJsonItems : Items → Except ReadError (List Json)
  | .close => .ok []
  | .broken => .error .malformed
  | .item head tail => do
    let v ← decodeJson head
    let vs ← decodeJsonItems tail
    pure (v :: vs)
/-- Members up to the end of an object, sorted into those before them. -/
def decodeJsonMembers (before : List (String × Json)) :
    Members → Except ReadError (List (String × Json))
  | .close => .ok before
  | .broken | .member none _ _ => .error .malformed
  | .member (some key) value tail => do
    let v ← decodeJson value
    decodeJsonMembers (Json.insert key v before) tail
end

end Reading

variable {α : Type}

/-- An optional value: null means that it is absent. -/
def decodeOptional (decode : Reading → Except ReadError α) : Reading → Except ReadError (Option α)
  | .null => .ok none
  | r => (decode r).map some

/-- Decodes a reading that has to be followed by nothing but space. -/
def parseReading (decode : Reading → Except ReadError α) (r : Reading × Bool) :
    Except ReadError α := do
  let a ← decode r.1
  if r.2 then pure a else throw .malformed

/-- Decodes a whole text. -/
def parse (decode : Reading → Except ReadError α) (s : String) : Except ReadError α :=
  let (value, alone) := Reading.ofText s
  parseReading decode (value.limit maxDepth, alone)

end JobFile
