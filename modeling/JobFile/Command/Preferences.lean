import JobFile.Json.Decode

/-!
# Preferences

* `Preferences`        : what a user may ask for beside the document;
* `Preferences.decode` : reads them.

Members that are not known are passed over.  Only their form is looked at, so they may be nested
more deeply and hold numbers and texts without a meaning.
-/

namespace JobFile

/-- What a user may ask for beside the document. -/
structure Preferences where
  /-- Is every document also written to the error stream? -/
  echo : Bool := false
  deriving DecidableEq, Repr

namespace Preferences

/-- The name under which messages know preferences. -/
def recordName : String := "RenderOptions"

/-- The JSON form of preferences. -/
def json (p : Preferences) : Json := .object [("echo", .bool p.echo)]

/-- Reads the members of preferences up to their end. -/
def decodeMembers (echo : Option Bool) : Members → Except ReadError Preferences
  | .close => .ok ⟨echo.getD false⟩
  | .broken | .member none _ _ => .error .malformed
  | .member (some "echo") value tail =>
    if echo.isSome then .error (.mismatch (.duplicateField "echo"))
    else do
      let b ← value.decodeFlag
      decodeMembers (some b) tail
  | .member (some _) value tail =>
    if value.sound then decodeMembers echo tail else .error .malformed

/-- Reads preferences, written as an object or as an array. -/
def decode : Reading → Except ReadError Preferences
  | .object members => decodeMembers none members
  | .array .close => .ok {}
  | .array (.item head tail) => do
    let b ← head.decodeFlag
    match tail with
    | .close => pure ⟨b⟩
    | _ => throw .malformed
  | .array .broken => .error .malformed
  | r => .error (r.refuse (.record recordName))

/-- Reads the text of preferences. -/
def parse (s : String) : Except ReadError Preferences := parseReading decode (Reading.ofText s)

end Preferences

end JobFile
