import JobFile.Json.Decode
import JobFile.Value.Basic

/-!
# Reading untyped values

* `Value.decode` : a value of any kind.

The kind follows from the form of the JSON text.  Integers from `2 ^ 63` on become texts of their
digits, and null is refused at any depth.
-/

namespace JobFile

open Decimal (Number)

namespace Value

/-- A number as a value. -/
def ofNumber : Number → Value
  | .integer i _ => if i < 0x8000000000000000 then .integer (Int64.ofInt i) else .text (toString i)
  | .double x => .double x

mutual
/-- Reads a value of any kind. -/
def decode : Reading → Except ReadError Value
  | .bool b => .ok (.boolean b)
  | .number n => .ok (ofNumber n)
  | .string s => .ok (.text s)
  | .array items => (decodeItems items).map .list
  | .object members => (decodeMembers [] members).map .map
  | r => .error (r.refuse .anyValue)
/-- Reads values up to the end of an array. -/
def decodeItems : Items → Except ReadError (List Value)
  | .close => .ok []
  | .broken => .error .malformed
  | .item head tail => do
    let v ← decode head
    let vs ← decodeItems tail
    pure (v :: vs)
/-- Reads entries up to the end of an object and puts them into those before them. -/
def decodeMembers (before : Entries Value) : Members → Except ReadError (Entries Value)
  | .close => .ok before
  | .broken | .member none _ _ => .error .malformed
  | .member (some key) value tail => do
    let v ← decode value
    decodeMembers (before.put key v) tail
end

/-- Reads values by key. -/
def decodeEntries : Reading → Except ReadError (Entries Value)
  | .object members => decodeMembers [] members
  | r => .error (r.refuse .map)

end Value

end JobFile
