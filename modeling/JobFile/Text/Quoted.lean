/-!
# String literals

* `quote`    : a text between double quotes, on one line;
* `quoteAll` : a bracketed list of such literals, without blanks;
* `unquote?` : reads one literal back and returns what follows it;
* `scan`, `assemble` : the two halves of reading, the form of the literal and its meaning.

A backslash introduces every escape.  The double quote and the backslash are escaped, and so is
every control character below U+0020; all other characters stand for themselves.
-/

namespace JobFile.Text

/-- The lower-case hexadecimal digit of a number below sixteen. -/
def hexDigit (d : Nat) : Char := if d < 10 then Char.ofNat (48 + d) else Char.ofNat (87 + d)

/-- The value of a hexadecimal digit of either case. -/
def hexValue? (c : Char) : Option Nat :=
  if '0' ≤ c ∧ c ≤ '9' then some (c.toNat - 48)
  else if 'a' ≤ c ∧ c ≤ 'f' then some (c.toNat - 87)
  else if 'A' ≤ c ∧ c ≤ 'F' then some (c.toNat - 55)
  else none

/-- How one character is written inside a literal. -/
def escape (c : Char) : List Char :=
  if c = '"' then ['\\', '"']
  else if c = '\\' then ['\\', '\\']
  else if c = '\x08' then ['\\', 'b']
  else if c = '\x0c' then ['\\', 'f']
  else if c = '\n' then ['\\', 'n']
  else if c = '\r' then ['\\', 'r']
  else if c = '\t' then ['\\', 't']
  else if c.toNat < 32 then
    ['\\', 'u', '0', '0', hexDigit (c.toNat / 16), hexDigit (c.toNat % 16)]
  else [c]

/-- The inside of a literal. -/
def encode (cs : List Char) : List Char := cs.flatMap escape

/-- A text as a string literal. -/
def quote (s : String) : String := String.ofList ('"' :: (encode s.toList ++ ['"']))

@[simp] theorem toList_quote (s : String) :
    (quote s).toList = '"' :: (encode s.toList ++ ['"']) := by
  simp [quote]

@[simp] theorem encode_nil : encode [] = [] := rfl

@[simp] theorem encode_cons (c : Char) (cs : List Char) :
    encode (c :: cs) = escape c ++ encode cs := by
  simp [encode]

/-- Texts as a bracketed list of string literals. -/
def quoteAll (items : List String) : String :=
  "[" ++ String.intercalate "," (items.map quote) ++ "]"

/-! ## Reading -/

/-- A unit of a literal's inside: a character, or half of a surrogate pair given by its number. -/
inductive Piece where
  | char (c : Char)
  | high (n : Nat)
  | low (n : Nat)
  deriving DecidableEq, Repr

/-- The unit that a four-digit escape denotes. -/
def Piece.ofUnit (n : Nat) : Piece :=
  if 0xD800 ≤ n ∧ n ≤ 0xDBFF then .high n
  else if 0xDC00 ≤ n ∧ n ≤ 0xDFFF then .low n
  else .char (Char.ofNat n)

/-- The character of a one-letter escape. -/
def unescape? : Char → Option Char
  | '"' => some '"'
  | '\\' => some '\\'
  | '/' => some '/'
  | 'b' => some '\x08'
  | 'f' => some '\x0c'
  | 'n' => some '\n'
  | 'r' => some '\r'
  | 't' => some '\t'
  | _ => none

/-- The number that four hexadecimal digits write. -/
def hexUnit? (a b c d : Char) : Option Nat :=
  match hexValue? a, hexValue? b, hexValue? c, hexValue? d with
  | some a, some b, some c, some d => some (((a * 16 + b) * 16 + c) * 16 + d)
  | _, _, _, _ => none

/-- Reads the inside of a literal up to its closing quote and returns what follows the quote.
Control characters have to be escaped. -/
def scan : List Char → Option (List Piece × List Char)
  | [] => none
  | '"' :: rest => some ([], rest)
  | '\\' :: 'u' :: a :: b :: c :: d :: rest =>
    match hexUnit? a b c d, scan rest with
    | some n, some (ps, after) => some (Piece.ofUnit n :: ps, after)
    | _, _ => none
  | '\\' :: e :: rest =>
    match unescape? e, scan rest with
    | some c, some (ps, after) => some (.char c :: ps, after)
    | _, _ => none
  | c :: rest =>
    if c.toNat < 32 ∨ c = '\\' then none
    else match scan rest with
      | some (ps, after) => some (.char c :: ps, after)
      | none => none

/-- The characters that the units of a literal stand for.  Halves of a surrogate pair have to
stand side by side, the high one first. -/
def assemble : List Piece → Option (List Char)
  | [] => some []
  | .char c :: rest => (assemble rest).map (c :: ·)
  | .high a :: .low b :: rest =>
    (assemble rest).map (Char.ofNat (0x10000 + (a - 0xD800) * 1024 + (b - 0xDC00)) :: ·)
  | _ :: _ => none

/-- Reads one string literal from the front of a text. -/
def unquote? : List Char → Option (List Char × List Char)
  | '"' :: rest =>
    match scan rest with
    | some (ps, after) => (assemble ps).map (·, after)
    | none => none
  | _ => none

end JobFile.Text
