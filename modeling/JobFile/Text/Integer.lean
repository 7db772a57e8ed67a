/-!
# Canonical integers

* `denotesInteger` : is a text the decimal form of an integer?

An integer of any size qualifies.  A plus sign, a leading zero, a negated zero, blanks and digits
outside ASCII do not.
-/

namespace JobFile.Text

/-- Does a text begin with a digit other than zero and hold digits only? -/
def isPositiveNumeral : List Char → Bool
  | [] => false
  | c :: cs => '1' ≤ c && c ≤ '9' && cs.all fun d => '0' ≤ d && d ≤ '9'

/-- Are these the characters of an integer's decimal form? -/
def isIntegerNumeral : List Char → Bool
  | ['0'] => true
  | '-' :: cs => isPositiveNumeral cs
  | cs => isPositiveNumeral cs

/-- Is the text the decimal form of an integer? -/
def denotesInteger (s : String) : Bool := isIntegerNumeral s.toList

example : denotesInteger "99999999999999999999" = true := by decide
example : denotesInteger "-0" = false := by decide
example : denotesInteger "--1" = false := by decide

end JobFile.Text
