import JobFile.Block.Refusal

/-!
# Values as lists of texts

* `Value.scalar`    : the text of a scalar;
* `Value.flatten`   : the texts of the scalars inside a value, from left to right.

A scalar counts as a list of one, and lists inside lists dissolve at any depth.  Doubles and maps
have no text and are refused.
-/

namespace JobFile.Value

/-- The text of a scalar, which is the value of the given field. -/
def scalar (field : String) : Value → Except Refusal String
  | .text s => .ok s
  | .integer i => .ok (toString i.toInt)
  | .boolean b => .ok (toString b)
  | v => .error (.unsupportedKind field v.kind)

mutual
/-- The texts of the scalars inside a value of the given field, from left to right. -/
def flatten (field : String) : Value → Except Refusal (List String)
  | .list items => flattenAll field items
  | v => (v.scalar field).map fun s => [s]
/-- The texts of the scalars inside several values. -/
def flattenAll (field : String) : List Value → Except Refusal (List String)
  | [] => .ok []
  | v :: vs => do
    let ss ← v.flatten field
    let rest ← flattenAll field vs
    pure (ss ++ rest)
end

end JobFile.Value
