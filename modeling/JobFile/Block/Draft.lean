import JobFile.Block.Context
import JobFile.Text.Quoted

/-!
# The document under construction

* `Draft`        : the text so far, the indentation, and the open blocks;
* `Draft.line`, `Draft.raw`, `Draft.startBlock`, `Draft.endBlock` : what can be added;
* `Draft.finish` : the document, once every block is closed.

Lines are indented by two spaces for every open block.  A blank line separates a block from what
stands before it in the same block, so a block that comes first has none.
-/

namespace JobFile

/-- A document under construction. -/
structure Draft where
  text : String := ""
  indent : Nat := 0
  /-- Has nothing been added since the innermost open block began? -/
  first : Bool := true
  context : Context := {}
  deriving DecidableEq, Repr

/-- The line that opens a block, with the given bracket at its end. -/
def headerLine (keyword : String) (name : Option String) (bracket : String) : String :=
  match name with
  | some n => keyword ++ " " ++ Text.quote n ++ " " ++ bracket
  | none => keyword ++ " " ++ bracket

/-- The spaces before a line inside the given number of blocks. -/
def indentation (depth : Nat) : String := String.ofList (List.replicate (2 * depth) ' ')

namespace Draft

/-- Adds a line at the current indentation. -/
def line (d : Draft) (text : String) : Except Breach Draft :=
  if d.indent = d.context.depth then
    .ok { d with text := d.text ++ (indentation d.indent ++ text ++ "\n"), first := false }
  else .error (.misaligned d.indent d.context.depth)

/-- Adds a text as it is. -/
def raw (d : Draft) (text : String) : Draft :=
  { d with text := d.text ++ text, first := false }

/-- Opens a block. -/
def startBlock (d : Draft) (keyword : String) (name : Option String) : Except Breach Draft := do
  let d := if d.first then d else { d with text := d.text ++ "\n" }
  let d ← d.line (headerLine keyword name "\x7b")
  pure { d with context := d.context.enter keyword, first := true, indent := d.indent + 1 }

/-- Closes the innermost block, which has to carry the keyword. -/
def endBlock (d : Draft) (keyword : String) : Except Breach Draft :=
  match d.indent with
  | 0 => .error .noIndent
  | indent + 1 => do
    let context ← d.context.leave keyword
    { d with context, indent, first := false }.line "\x7d"

/-- The document, if every block is closed. -/
def finish (d : Draft) : Except Breach String :=
  if d.context.isRoot then .ok d.text else .error (.stillOpen d.context.current)

end Draft

end JobFile
