import JobFile.Decimal.Shortest

/-!
# Decimal text

* `Style`      : where positional notation ends and how an exponent is written;
* `Style.text` : the text of a decimal in a style.

Every text has a point or an exponent, so that it is never taken for an integer.
-/

namespace JobFile.Decimal

/-- How a decimal with leading digit at `10 ^ e` is written: positionally for
`least ≤ e ≤ greatest`, else with an exponent that carries a sign. -/
structure Style where
  least : Int
  greatest : Int
  mark : Char
  plus : Bool
  deriving DecidableEq, Repr

/-- The decimal digits of a number. -/
def numeral (n : Nat) : List Char := Nat.toDigits 10 n

/-- Zeros in a row. -/
def zeros (n : Nat) : List Char := List.replicate n '0'

/-- The digits `ds`, the last of which stands at `10 ^ k`, in positional notation. -/
def positional (ds : List Char) (k : Int) : List Char :=
  if 0 ≤ k then ds ++ zeros k.toNat ++ ['.', '0']
  else
    let places := (-k).toNat
    let padded := zeros (places + 1 - ds.length) ++ ds
    padded.take (padded.length - places) ++ '.' :: padded.drop (padded.length - places)

/-- The digits `ds`, the first of which stands at `10 ^ e`, with an exponent. -/
def Style.exponential (st : Style) (ds : List Char) (e : Int) : List Char :=
  let significand := match ds with
    | d :: rest@(_ :: _) => d :: '.' :: rest
    | _ => ds
  let sign := if e < 0 then ['-'] else if st.plus then ['+'] else []
  significand ++ st.mark :: (sign ++ numeral e.natAbs)

/-- The text of a decimal. -/
def Style.text (st : Style) (s : Scientific) : List Char :=
  let ds := numeral s.digits
  let e := s.exponent + ds.length - 1
  if st.least ≤ e ∧ e ≤ st.greatest then positional ds s.exponent else st.exponential ds e

end JobFile.Decimal
