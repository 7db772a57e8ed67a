/-!
# Number literals

* `Number`         : an integer of limited size or a double;
* `Literal`        : the parts of a number as it is written in JSON;
* `Literal.scan?`  : reads one from the front of a text;
* `Literal.value?` : the number that it denotes.

A literal without a point and an exponent denotes an integer if it lies between `-2 ^ 63` and
`2 ^ 64 - 1`, and a double otherwise.  The double is found by one multiplication or division of
the significand with a power of ten, so its last place is not always the nearest one.
-/

namespace JobFile.Decimal

/-- The integers that a literal denotes exactly. -/
def IsExact (i : Int) : Prop := -0x8000000000000000 ≤ i ∧ i < 0x10000000000000000

instance (i : Int) : Decidable (IsExact i) := inferInstanceAs (Decidable (_ ∧ _))

/-- A number: an integer from `-2 ^ 63` to `2 ^ 64 - 1`, or a double. -/
inductive Number where
  | integer (i : Int) (exact : IsExact i)
  | double (x : Float)

/-- An integer as a number; one out of range becomes a double. -/
def Number.ofInt (i : Int) : Number :=
  if h : IsExact i then .integer i h else .double (Float.ofInt i)

/-- The parts of a number literal, each as its digits. -/
structure Literal where
  negative : Bool
  whole : List Char
  fraction : Option (List Char)
  /-- Whether the exponent is negative, and its digits. -/
  exponent : Option (Bool × List Char)
  deriving DecidableEq, Repr

/-- The digits at the front of a text and what follows them. -/
def spanDigits (cs : List Char) : List Char × List Char := cs.span Char.isDigit

/-- The digits of a whole part.  A leading zero stands alone. -/
def scanWhole? (cs : List Char) : Option (List Char × List Char) :=
  match spanDigits cs with
  | ([], _) => none
  | ('0' :: _ :: _, _) => none
  | (ds, rest) => some (ds, rest)

/-- A point with digits after it, if a point follows. -/
def scanFraction? : List Char → Option (Option (List Char) × List Char)
  | '.' :: cs =>
    match spanDigits cs with
    | ([], _) => none
    | (ds, rest) => some (some ds, rest)
  | cs => some (none, cs)

/-- The digits of an exponent, after its mark and sign. -/
def scanExponentDigits? (negative : Bool) (cs : List Char) :
    Option (Option (Bool × List Char) × List Char) :=
  match spanDigits cs with
  | ([], _) => none
  | (ds, rest) => some (some (negative, ds), rest)

/-- An exponent, if its mark follows. -/
def scanExponent? : List Char → Option (Option (Bool × List Char) × List Char)
  | 'e' :: '-' :: cs | 'E' :: '-' :: cs => scanExponentDigits? true cs
  | 'e' :: '+' :: cs | 'E' :: '+' :: cs => scanExponentDigits? false cs
  | 'e' :: cs | 'E' :: cs => scanExponentDigits? false cs
  | cs => some (none, cs)

/-- The parts after the sign. -/
def scanUnsigned? (negative : Bool) (cs : List Char) : Option (Literal × List Char) := do
  let (whole, cs) ← scanWhole? cs
  let (fraction, cs) ← scanFraction? cs
  let (exponent, cs) ← scanExponent? cs
  pure (⟨negative, whole, fraction, exponent⟩, cs)

/-- Reads a number literal from the front of a text. -/
def Literal.scan? : List Char → Option (Literal × List Char)
  | '-' :: cs => scanUnsigned? true cs
  | cs => scanUnsigned? false cs

/-! ## Values -/

/-- The number that decimal digits write. -/
def ofDigits (ds : List Char) : Nat := ds.foldl (fun n c => 10 * n + (c.toNat - 48)) 0

/-- The greatest significand that is taken in full. -/
def maxSignificand : Nat := 0xffffffffffffffff

/-- Takes digits into a significand while it stays within bounds, and returns it with the digits
left over. -/
def takeDigits (n : Nat) : List Char → Nat × List Char
  | [] => (n, [])
  | c :: cs =>
    let next := 10 * n + (c.toNat - 48)
    if next ≤ maxSignificand then takeDigits next cs else (n, c :: cs)

/-- The double `n · 10 ^ e`; none if it is too large. -/
def scale? (n : Float) (e : Int) : Option Float :=
  if e < -308 then
    if n == 0 then some n else scale? (n / Float.ofScientific 1 false 308) (e + 308)
  else if e < 0 then some (n / Float.ofScientific 1 false e.natAbs)
  else if 308 < e then if n == 0 then some n else none
  else
    let x := n * Float.ofScientific 1 false e.natAbs
    if x.isInf then none else some x
termination_by (-e).toNat
decreasing_by omega

/-- The greatest exponent that is taken in full. -/
def maxExponent : Nat := 0x7fffffff

/-- The double that the parts of a literal denote; none if it is too large.  Digits beyond the
greatest significand only count by their place. -/
def Literal.toFloat? (l : Literal) : Option Float :=
  let (head, left) := takeDigits 0 l.whole
  let fraction := l.fraction.getD []
  let (n, rest) := takeDigits head fraction
  let places : Int := (left.length : Int) - (fraction.length - rest.length : Nat)
  let magnitude := match l.exponent with
    | none => scale? n.toUInt64.toFloat places
    | some (negative, ds) =>
      let e := ofDigits ds
      if maxExponent < e then
        if n = 0 ∨ negative then some 0 else none
      else scale? n.toUInt64.toFloat (if negative then places - e else places + e)
  magnitude.map fun x => if l.negative then -x else x

/-- The number that a literal denotes; none if it is too large.  Minus zero is a double. -/
def Literal.value? (l : Literal) : Option Number :=
  let n := ofDigits l.whole
  let i : Int := if l.negative then -n else n
  if h : IsExact i then
    if l.fraction = none ∧ l.exponent = none ∧ ¬(l.negative ∧ n = 0) then some (.integer i h)
    else l.toFloat?.map .double
  else l.toFloat?.map .double

end JobFile.Decimal
