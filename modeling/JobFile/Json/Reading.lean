import JobFile.Json.Basic

/-!
# JSON texts as they are read

* `Reading`          : what a text holds, in reading order, with the place where its form breaks;
* `Reading.ofText`   : reads a text;
* `Reading.limit`    : cuts off containers that are nested too deeply;
* `Reading.sound`    : has the text the form of a JSON value?
* `Json.reading`     : a JSON value as a reading without a break.

A text is decoded while it is read, so of two faults the one that stands first is reported.  A
reading therefore keeps everything up to the first break of form and nothing after it: a container
ends with `close` if its bracket was found and with `broken` if the text breaks there.
-/

namespace JobFile

open Decimal (Number Literal)

mutual
/-- What a text holds where a value is expected. -/
inductive Reading where
  | null
  | bool (b : Bool)
  | number (n : Number)
  | string (s : String)
  | array (items : Items)
  | object (members : Members)
  /-- A string or number of correct form that denotes nothing: half of a surrogate pair is
  missing, or the number is too large. -/
  | meaningless
  /-- The text has not the form of a value. -/
  | broken
/-- The items of an array. -/
inductive Items where
  | close
  | broken
  | item (head : Reading) (tail : Items)
/-- The members of an object.  A key of correct form that denotes nothing is absent. -/
inductive Members where
  | close
  | broken
  | member (key : Option String) (value : Reading) (tail : Members)
end

namespace Reading

/-- The characters that may stand between the tokens of a text. -/
def isSpace (c : Char) : Bool := c = ' ' ∨ c = '\t' ∨ c = '\r' ∨ c = '\n'

/-- A text without the space at its front. -/
def skipSpace (cs : List Char) : List Char := cs.dropWhile isSpace

/-- What follows a word, if the text begins with it. -/
def afterWord? (word : String) (cs : List Char) : Option (List Char) :=
  word.toList.isPrefixOf? cs

/-- A word that stands for a value. -/
def readWord (word : String) (value : Reading) (cs : List Char) : Reading × List Char :=
  match afterWord? word cs with
  | some rest => (value, rest)
  | none => (.broken, [])

/-- A number. -/
def readNumber (cs : List Char) : Reading × List Char :=
  match Literal.scan? cs with
  | some (l, rest) => ((l.value?.map .number).getD .meaningless, rest)
  | none => (.broken, [])

/-- The text that a scanned literal denotes, if any. -/
def meaning? (ps : List Text.Piece) : Option String := (Text.assemble ps).map String.ofList

mutual
/-- Reads one value from the front of a text.  The first argument bounds the nesting. -/
def read : Nat → List Char → Reading × List Char
  | 0, _ => (.broken, [])
  | fuel + 1, cs =>
    match skipSpace cs with
    | '"' :: rest =>
      match Text.scan rest with
      | some (ps, after) => (((meaning? ps).map .string).getD .meaningless, after)
      | none => (.broken, [])
    | '[' :: rest =>
      let (items, after) := readItems fuel rest
      (.array items, after)
    | '\x7b' :: rest =>
      let (members, after) := readMembers fuel rest
      (.object members, after)
    | 'n' :: rest => readWord "ull" .null rest
    | 't' :: rest => readWord "rue" (.bool true) rest
    | 'f' :: rest => readWord "alse" (.bool false) rest
    | rest => readNumber rest
/-- Reads the items of an array after its opening bracket. -/
def readItems : Nat → List Char → Items × List Char
  | 0, _ => (.broken, [])
  | fuel + 1, cs =>
    match skipSpace cs with
    | ']' :: rest => (.close, rest)
    | rest =>
      let (head, after) := read fuel rest
      let (tail, after) := readMoreItems fuel after
      (.item head tail, after)
/-- Reads the items of an array after one of them. -/
def readMoreItems : Nat → List Char → Items × List Char
  | 0, _ => (.broken, [])
  | fuel + 1, cs =>
    match skipSpace cs with
    | ']' :: rest => (.close, rest)
    | ',' :: rest =>
      match skipSpace rest with
      | ']' :: _ | [] => (.broken, [])
      | rest =>
        let (head, after) := read fuel rest
        let (tail, after) := readMoreItems fuel after
        (.item head tail, after)
    | _ => (.broken, [])
/-- Reads the members of an object after its opening brace. -/
def readMembers : Nat → List Char → Members × List Char
  | 0, _ => (.broken, [])
  | fuel + 1, cs =>
    match skipSpace cs with
    | '\x7d' :: rest => (.close, rest)
    | '"' :: rest => readMember fuel rest
    | _ => (.broken, [])
/-- Reads a member from inside its key, and those after it. -/
def readMember : Nat → List Char → Members × List Char
  | 0, _ => (.broken, [])
  | fuel + 1, cs =>
    match Text.scan cs with
    | none => (.broken, [])
    | some (ps, after) =>
      match skipSpace after with
      | ':' :: rest =>
        let (value, after) := read fuel rest
        let (tail, after) := readMoreMembers fuel after
        (.member (meaning? ps) value tail, after)
      | _ => (.member (meaning? ps) .broken .broken, [])
/-- Reads the members of an object after one of them. -/
def readMoreMembers : Nat → List Char → Members × List Char
  | 0, _ => (.broken, [])
  | fuel + 1, cs =>
    match skipSpace cs with
    | '\x7d' :: rest => (.close, rest)
    | ',' :: rest =>
      match skipSpace rest with
      | '"' :: rest => readMember fuel rest
      | _ => (.broken, [])
    | _ => (.broken, [])
end

/-- Each step of reading that does not take a character follows one that does. -/
def enough (cs : List Char) : Nat := 2 * cs.length + 2

/-- Reads the value of a text, and tells whether nothing but space follows it. -/
def ofText (s : String) : Reading × Bool :=
  let (value, rest) := read (enough s.toList) s.toList
  (value, (skipSpace rest).isEmpty)

end Reading

/-! ## Form -/

mutual
/-- Has what was read the form of a value? -/
def Reading.sound : Reading → Bool
  | .array items => items.sound
  | .object members => members.sound
  | .broken => false
  | _ => true
/-- Have the items the form of an array? -/
def Items.sound : Items → Bool
  | .close => true
  | .broken => false
  | .item head tail => head.sound && tail.sound
/-- Have the members the form of an object? -/
def Members.sound : Members → Bool
  | .close => true
  | .broken => false
  | .member _ value tail => value.sound && tail.sound
end

mutual
/-- A reading cut off below a number of nested containers: the text breaks where one more of them
opens. -/
def Reading.limit : Nat → Reading → Reading
  | 0, .array _ => .array .broken
  | 0, .object _ => .object .broken
  | depth + 1, .array items => .array (items.limit depth)
  | depth + 1, .object members => .object (members.limit depth)
  | _, value => value
/-- Items cut off below a number of nested containers. -/
def Items.limit : Nat → Items → Items
  | depth, .item head tail => .item (head.limit depth) (tail.limit depth)
  | _, items => items
/-- Members cut off below a number of nested containers. -/
def Members.limit : Nat → Members → Members
  | depth, .member key value tail => .member key (value.limit depth) (tail.limit depth)
  | _, members => members
end

mutual
/-- A JSON value as it would be read. -/
def Json.reading : Json → Reading
  | .null => .null
  | .bool b => .bool b
  | .number n => .number n
  | .string s => .string s
  | .array items => .array (itemsReading items)
  | .object members => .object (membersReading members)
/-- JSON values as they would be read in an array. -/
def Json.itemsReading : List Json → Items
  | [] => .close
  | v :: vs => .item v.reading (itemsReading vs)
/-- Members as they would be read in an object. -/
def Json.membersReading : List (String × Json) → Members
  | [] => .close
  | (k, v) :: ms => .member (some k) v.reading (membersReading ms)
end

end JobFile
