import JobFile.Json.Mismatch
import JobFile.Text.Shown
import JobFile.Value.Basic

/-!
# What can go wrong while a document is written

* `Refusal` : the job cannot be written as asked;
* `Breach`  : blocks are not opened and closed in pairs, which is the caller's mistake;
* `message` : the wording of each.
-/

namespace JobFile

/-- Why a job cannot be written. -/
inductive Refusal where
  /-- The stanza stands in the wrong block. -/
  | misplaced (stanza : String) (allowed : List String)
  | missingValue (stanza : String) (field : String)
  | unsupportedKind (field : String) (kind : ValueKind)
  | invalidChoice (field : String) (value : String) (allowed : List String)
  | unknownField (stanza : String) (field : String)
  | unknownArtifact (id : String)
  | unknownStanza (name : String)
  | invalidOptions (stanza : String) (why : ReadError)

namespace Refusal

/-- A text between single quotes. -/
def cite (s : String) : String := "'" ++ s ++ "'"

/-- Texts between single quotes, with commas. -/
def citeAll (items : List String) : String := String.intercalate ", " (items.map cite)

/-- The wording of a refusal. -/
def message : Refusal → String
  | .misplaced stanza allowed => cite stanza ++ " can only appear in " ++ citeAll allowed
  | .missingValue stanza field =>
    "Value for " ++ cite field ++ " in " ++ cite stanza ++ " is missing"
  | .unsupportedKind field kind =>
    "Unsupported value type for " ++ cite field ++ ": " ++ kind.word
  | .invalidChoice field value allowed =>
    "Bad value for " ++ cite field ++ ": " ++ cite value ++ " (expected one of "
      ++ citeAll allowed ++ ")"
  | .unknownField stanza field => "Unknown field " ++ cite field ++ " in " ++ cite stanza
  | .unknownArtifact id => "Unknown package ID " ++ cite id
  | .unknownStanza name => "Unknown stanza " ++ cite name
  | .invalidOptions stanza why => "Invalid options for " ++ cite stanza ++ ": " ++ why.dataMessage

end Refusal

/-- How the pairing of blocks can be violated. -/
inductive Breach where
  /-- A block is left while none is open. -/
  | underflow (keyword : String)
  /-- A block is left while another one is the innermost. -/
  | outOfOrder (keyword : String) (innermost : String)
  /-- The document ends inside a block. -/
  | stillOpen (keyword : String)
  /-- The indentation falls below zero. -/
  | noIndent
  /-- The indentation differs from the number of open blocks. -/
  | misaligned (indent : Nat) (depth : Nat)
  deriving DecidableEq, Repr

/-- The wording of a breach. -/
def Breach.message : Breach → String
  | .underflow keyword =>
    "context stack underflow: exit('" ++ keyword ++ "') with only the root frame open"
  | .outOfOrder keyword innermost =>
    "context stack out of order: exit('" ++ keyword ++ "') but top was Some("
      ++ Text.shown innermost ++ ")"
  | .stillOpen keyword => "document finished with '" ++ keyword ++ "' still open"
  | .noIndent => "attempt to subtract with overflow"
  | .misaligned indent depth =>
    "indented by " ++ toString indent ++ " inside " ++ toString depth ++ " open blocks"

end JobFile
