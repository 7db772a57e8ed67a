import JobFile.Decimal.Literal
import JobFile.Decimal.Style
import JobFile.Text.Quoted

/-!
# JSON trees

* `Json`         : a JSON value whose objects keep the order of their members;
* `Json.text`    : its compact text, without blanks;
* `Json.insert`  : puts a member into an object kept sorted by key;
* `Json.sorted`  : the same value with every object sorted.
-/

namespace JobFile

open Decimal (Number)

/-- A JSON value. -/
inductive Json where
  | null
  | bool (b : Bool)
  | number (n : Number)
  | string (s : String)
  | array (items : List Json)
  | object (members : List (String × Json))

namespace Json

/-- Doubles are positional from `10 ^ (-5)` up to below `10 ^ 16`; the exponents of others carry a
sign. -/
def numberStyle : Decimal.Style := ⟨-5, 15, 'e', true⟩

/-- The text of a finite double: the fewest digits that read back, the nearest of those. -/
def finiteText (x : Float) : String :=
  let bits := x.toBits.toNat
  let sign := if 0x8000000000000000 ≤ bits then "-" else ""
  if bits % 0x8000000000000000 = 0 then sign ++ "0.0"
  else sign ++ String.ofList (numberStyle.text (Decimal.shortest (.ofBits bits)))

/-- The text of a double.  Infinities and NaN have no JSON form and count as absent. -/
def doubleText (x : Float) : String := if x.isFinite then finiteText x else "null"

/-- The text of a number. -/
def numberText : Number → String
  | .integer i _ => toString i
  | .double x => doubleText x

mutual
/-- The compact text of a value. -/
def text : Json → String
  | .null => "null"
  | .bool b => if b then "true" else "false"
  | .number n => numberText n
  | .string s => Text.quote s
  | .array items => "[" ++ String.intercalate "," (texts items) ++ "]"
  | .object members => "\x7b" ++ String.intercalate "," (memberTexts members) ++ "\x7d"
/-- The compact texts of several values. -/
def texts : List Json → List String
  | [] => []
  | v :: vs => v.text :: texts vs
/-- The compact texts of an object's members. -/
def memberTexts : List (String × Json) → List String
  | [] => []
  | (k, v) :: ms => (Text.quote k ++ ":" ++ v.text) :: memberTexts ms
end

/-! ## Sorted objects -/

/-- Puts a member into members sorted by key.  An earlier one of the same key is replaced. -/
def insert (key : String) (value : α) : List (String × α) → List (String × α)
  | [] => [(key, value)]
  | (k, v) :: rest =>
    if key < k then (key, value) :: (k, v) :: rest
    else if key = k then (key, value) :: rest
    else (k, v) :: insert key value rest

mutual
/-- The same value with the members of every object sorted by key. -/
def sorted : Json → Json
  | .array items => .array (sortedItems items)
  | .object members => .object (sortedMembers members)
  | v => v
/-- The same values with the members of every object sorted by key. -/
def sortedItems : List Json → List Json
  | [] => []
  | v :: vs => v.sorted :: sortedItems vs
/-- The members sorted by key, and so those of every object inside. -/
def sortedMembers : List (String × Json) → List (String × Json)
  | [] => []
  | (k, v) :: ms =>
    let rest := sortedMembers ms
    if rest.any (·.1 == k) then rest else insert k v.sorted rest
end

/-- A whole number as a JSON value. -/
def ofInt (i : Int) : Json := .number (.ofInt i)

/-- Texts as a JSON array. -/
def ofTexts (items : List String) : Json := .array (items.map .string)

/-- The member of an object with a given key, the last one if it is repeated. -/
def get? (key : String) : Json → Option Json
  | .object members => members.reverse.lookup key
  | _ => none

end Json

end JobFile
