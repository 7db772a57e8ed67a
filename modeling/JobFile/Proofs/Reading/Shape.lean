import JobFile.Block.Assign
import JobFile.Text.QuotedRoundtrip

/-!
# The shapes of lines

* `Text.isPlain`   : is a text a key that needs no quotes?
* `Text.isToken`   : is a text a value as it stands on the line of its key?
* `Shape`          : what a line can be, outside documents;
* `Shape.ofLine?`  : the shape of a line without its indentation;
* `Shape.ofLine?_header`, `Shape.ofLine?_assign`, `Shape.ofLine?_document` : lines are written in the
  shape in which they are read.

A line begins with its key, and the character after the space behind the key decides its shape: a
bracket or a quote for a block, an equals sign for a value.  No text can be mistaken for another
shape, since what follows an opening quote is read as a literal up to the quote that closes it.
-/

namespace JobFile

namespace Text

/-- The characters of plain keys: letters and digits of ASCII, and three signs. -/
def isKeyChar (c : Char) : Bool := c.isAlphanum || c == '_' || c == '-' || c == '.'

/-- Is a text not empty and made of these characters only? -/
def isPlain (s : String) : Bool := !s.toList.isEmpty && s.toList.all isKeyChar

/-- Are there digits, and nothing else? -/
def isDigits (cs : List Char) : Bool := !cs.isEmpty && cs.all Char.isDigit

/-- Is a text a whole string literal, a list in brackets, an integer or a truth value? -/
def isToken (cs : List Char) : Bool :=
  match cs with
  | '"' :: _ => (unquote? cs).any fun (_, after) => after.isEmpty
  | '[' :: items => items.getLast? == some ']'
  | '-' :: digits => isDigits digits
  | _ => isDigits cs || cs == "true".toList || cs == "false".toList

end Text

/-- What a line can be, outside documents. -/
inductive Shape where
  | close
  | opening (keyword : String) (name : Option String)
  | empty (keyword : String) (name : Option String)
  | assign (key : String) (token : String)
  /-- The line before a document. -/
  | document (key : String)
  deriving DecidableEq, Repr

namespace Shape

/-- What stands in place of a value before a document. -/
def documentMark : List Char := "<<".toList ++ Assign.endMark.toList

/-- The shape of the line of a block, from the bracket at its end. -/
def ofBracket? (keyword : String) (name : Option String) (bracket : List Char) : Option Shape :=
  match bracket with
  | ['\x7b'] => some (.opening keyword name)
  | ['\x7b', '\x7d'] => some (.empty keyword name)
  | _ => none

/-- The shape of a line that begins with a key and a space, from what follows. -/
def ofTail? (key : String) (tail : List Char) : Option Shape :=
  match tail with
  | '=' :: ' ' :: token =>
    if token = documentMark then some (.document key)
    else if Text.isToken token then some (.assign key (String.ofList token))
    else none
  | '"' :: _ =>
    match Text.unquote? tail with
    | some (name, ' ' :: bracket) => ofBracket? key (some (String.ofList name)) bracket
    | _ => none
  | _ => ofBracket? key none tail

/-- The shape of a line without its indentation. -/
def ofLine? (line : List Char) : Option Shape :=
  if line = ['\x7d'] then some .close
  else
    match line.takeWhile Text.isKeyChar, line.dropWhile Text.isKeyChar with
    | [], _ => none
    | key, ' ' :: tail => ofTail? (String.ofList key) tail
    | _, _ => none

/-! ## Lines that begin with a key -/

theorem ofLine?_close : ofLine? ['\x7d'] = some .close := rfl

theorem ofLine?_key {key : String} (h : Text.isPlain key) (tail : List Char) :
    ofLine? (key.toList ++ ' ' :: tail) = ofTail? key tail := by
  obtain ⟨hne, hall⟩ := Bool.and_eq_true_iff.1 h
  have hkey : ∀ c ∈ key.toList, Text.isKeyChar c = true := List.all_eq_true.1 hall
  have hspace : Text.isKeyChar ' ' = false := by decide
  have htake : (key.toList ++ ' ' :: tail).takeWhile Text.isKeyChar = key.toList := by
    rw [List.takeWhile_append_of_pos hkey, List.takeWhile_cons_of_neg (by simp [hspace]),
      List.append_nil]
  have hdrop : (key.toList ++ ' ' :: tail).dropWhile Text.isKeyChar = ' ' :: tail := by
    rw [List.dropWhile_append_of_pos hkey, List.dropWhile_cons_of_neg (by simp [hspace])]
  have hclose : key.toList ++ ' ' :: tail ≠ ['\x7d'] := by
    intro heq
    cases hk : key.toList with
    | nil => simp [hk] at hne
    | cons c cs => simp [hk] at heq
  unfold ofLine?
  rw [if_neg hclose, htake, hdrop]
  cases hk : key.toList with
  | nil => simp [hk] at hne
  | cons c cs =>
    show ofTail? (String.ofList (c :: cs)) tail = _
    rw [← hk, String.ofList_toList]

/-- A quoted name is read up to its closing quote, whatever stands in it. -/
theorem ofTail?_quote (key name : String) (bracket : List Char) :
    ofTail? key ((Text.quote name).toList ++ ' ' :: bracket) =
      ofBracket? key (some name) bracket := by
  have hread := Text.unquote?_quote name (' ' :: bracket)
  rw [Text.toList_quote, List.cons_append] at hread ⊢
  rw [ofTail?, hread]
  show ofBracket? key (some (String.ofList name.toList)) bracket = _
  rw [String.ofList_toList]

theorem toList_headerLine (keyword : String) (name : Option String) (bracket : String) :
    (headerLine keyword name bracket).toList =
      keyword.toList ++ ' ' :: (match name with
        | none => bracket.toList
        | some n => (Text.quote n).toList ++ ' ' :: bracket.toList) := by
  cases name <;> simp [headerLine]

variable {key : String} (h : Text.isPlain key)

include h

theorem ofLine?_header (name : Option String) :
    ofLine? (headerLine key name "\x7b").toList = some (.opening key name) := by
  rw [toList_headerLine, ofLine?_key h]
  cases name with
  | none => rfl
  | some n => exact ofTail?_quote key n ['\x7b']

theorem ofLine?_empty (name : Option String) :
    ofLine? (headerLine key name "\x7b\x7d").toList = some (.empty key name) := by
  rw [toList_headerLine, ofLine?_key h]
  cases name with
  | none => rfl
  | some n => exact ofTail?_quote key n ['\x7b', '\x7d']

theorem ofLine?_assign {token : String} (ht : Text.isToken token.toList) :
    ofLine? (key ++ " = " ++ token).toList = some (.assign key token) := by
  have htext : (key ++ " = " ++ token).toList =
      key.toList ++ ' ' :: '=' :: ' ' :: token.toList := by simp
  have hmark : token.toList ≠ documentMark := by
    intro heq
    rw [heq] at ht
    revert ht
    decide
  rw [htext, ofLine?_key h, ofTail?, if_neg hmark, if_pos ht, String.ofList_toList]

theorem ofLine?_document :
    ofLine? (key ++ " = <<" ++ Assign.endMark).toList = some (.document key) := by
  have htext : (key ++ " = <<" ++ Assign.endMark).toList =
      key.toList ++ ' ' :: '=' :: ' ' :: documentMark := by simp [documentMark]
  rw [htext, ofLine?_key h, ofTail?, if_pos rfl]

end Shape

end JobFile
