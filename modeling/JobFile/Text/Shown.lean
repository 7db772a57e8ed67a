import JobFile.Text.Extending
import JobFile.Text.Ignorable
import JobFile.Text.Printable
import JobFile.Text.Quoted

/-!
# Texts inside messages

* `shown` : a text between double quotes with every invisible character spelled out.

Error messages cite texts in this form, so that a reader can tell a joiner or a control character
from nothing at all.  A character that has no visible form, that may be shown as nothing, or that
would attach itself to its neighbour is given by its number in hexadecimal between braces.
-/

namespace JobFile.Text

/-- A number in lower-case hexadecimal, without leading zeros. -/
def hexNumeral (n : Nat) : List Char := Nat.toDigits 16 n

/-- Would a reader overlook the character? -/
def isHidden (c : Char) : Bool := isExtending c || isIgnorable c || !isPrintable c

/-- How one character is cited. -/
def showChar (c : Char) : List Char :=
  if c = '\x00' then ['\\', '0']
  else if c = '\t' then ['\\', 't']
  else if c = '\r' then ['\\', 'r']
  else if c = '\n' then ['\\', 'n']
  else if c = '\\' then ['\\', '\\']
  else if c = '"' then ['\\', '"']
  else if isHidden c then
    '\\' :: 'u' :: '\x7b' :: (hexNumeral c.toNat ++ ['\x7d'])
  else [c]

/-- A text as messages cite it. -/
def shown (s : String) : String := String.ofList ('"' :: (s.toList.flatMap showChar ++ ['"']))

end JobFile.Text
