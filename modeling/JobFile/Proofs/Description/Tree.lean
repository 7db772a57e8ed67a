import JobFile.Description.Render
import JobFile.Proofs.Layout.Item

/-!
# The tree that a description denotes

* `Entry`            : what a block holds: keys with tokens or texts of several lines, and blocks;
* `Entry.items`      : how entries are laid out in lines;
* `Value.entries`, `Record.entries`, `Stanza.entry` : the entries of values, records and blocks;
* `Node.tree`, `Description.tree` : the entries of a node and of a description.

The tree is read off the data alone.  A node that cannot be written denotes nothing.
-/

namespace JobFile

/-- What a block holds. -/
inductive Entry where
  /-- A key with a value on the same line, as it is written. -/
  | assign (key : String) (token : String)
  /-- A key with a text on lines of its own. -/
  | document (key : String) (text : String)
  /-- A block on one line. -/
  | empty (keyword : String) (name : Option String)
  | block (keyword : String) (name : Option String) (entries : List Entry)

namespace Entry

mutual
/-- The lines and blocks of an entry. -/
def items : Entry → List Item
  | .assign key token => [.line (key ++ " = " ++ token)]
  | .document key text =>
    [.line (key ++ " = <<" ++ Assign.endMark), .raw text, .raw ("\n" ++ Assign.endMark ++ "\n")]
  | .empty keyword name => [.line (headerLine keyword name "\x7b\x7d")]
  | .block keyword name entries => [.block keyword name (allItems entries)]
/-- The lines and blocks of several entries. -/
def allItems : List Entry → List Item
  | [] => []
  | e :: es => e.items ++ allItems es
end

theorem allItems_append (xs ys : List Entry) :
    allItems (xs ++ ys) = allItems xs ++ allItems ys := by
  induction xs with
  | nil => rfl
  | cons x xs ih => simp only [List.cons_append, allItems, ih, List.append_assoc]

theorem allItems_singleton (e : Entry) : allItems [e] = e.items := by
  simp only [allItems, List.append_nil]

end Entry

/-! ## Values -/

/-- The entry of a text. -/
def Entry.text (key value : String) : Entry := .assign key (Text.quote value)

/-- The entry of a list of texts. -/
def Entry.texts (key : String) (values : List String) : Entry := .assign key (Text.quoteAll values)

/-- The block of texts by key. -/
def Entry.textMap (key : String) (es : Entries String) : Entry :=
  .block key none (es.map fun (k, v) => .text k v)

/-- The entry of a value of a kind. -/
def Kind.entry (key : String) : (k : Kind) → k.Carrier → Entry
  | .text, v => .text key v
  | .document, v => .document key (Text.trimEnd v)
  | .integer, v => .assign key (toString v.toInt)
  | .flag, v => .assign key (toString v)
  | .texts, v => .texts key v
  | .textMap, v => .textMap key v

namespace Value

mutual
/-- The texts of the scalars inside a value, from left to right. -/
def leaves : Value → List String
  | .boolean b => [toString b]
  | .integer i => [toString i.toInt]
  | .text s => [s]
  | .list items => allLeaves items
  | .double _ | .map _ => []
/-- The texts of the scalars inside several values. -/
def allLeaves : List Value → List String
  | [] => []
  | v :: vs => v.leaves ++ allLeaves vs
end

mutual
/-- The entries of a value under a key. -/
def entries (key : String) : Value → List Entry
  | .boolean b => [.assign key (toString b)]
  | .integer i => [.assign key (toString i.toInt)]
  | .text s => [if Text.denotesInteger s then .assign key s else .text key s]
  | .list items => [.texts key (allLeaves items)]
  | .map es => [.block key none (allEntries es)]
  | .double _ => []
/-- The entries of values under their keys. -/
def allEntries : List (String × Value) → List Entry
  | [] => []
  | (k, v) :: es => v.entries k ++ allEntries es
end

end Value

/-! ## Blocks -/

/-- The entries of a field: one if it has a value or a fallback. -/
def Field.entries (f : Field) (value : Option f.kind.Carrier) : List Entry :=
  match f.effective value with
  | some v => [f.kind.entry f.name v]
  | none => []

/-- The entries of a record, field by field. -/
def Record.entries : {fs : List Field} → Record fs → List (List Entry)
  | [], .nil => []
  | f :: _, .cons slot rest => f.entries slot.get? :: rest.entries

/-- The entry of a block of the catalog, with the entries of what stands in it. -/
def Stanza.entry (s : Stanza) (label : s.naming.Label) (settings : s.Settings)
    (inner : List Entry) : Entry :=
  let name := s.naming.label? label
  if s.isShort && settings.isBlank then .empty s.keyword name
  else .block s.keyword name ((s.arrange settings.entries).flatten ++ inner)

/-- The entries of a driver's settings.  The default driver names its command first. -/
def Config.entries (driver : String) (values : Entries Value) : List Entry :=
  if driver = standardDriver then
    (match values.get? "command" with
      | some (.text s) => [.text "command" s]
      | _ => [])
    ++ match values.get? "args" with
      | some v => [.texts "args" v.leaves]
      | none => []
  else Value.allEntries values

/-- The entry of a credentials template. -/
def Credentials.entry (c : Credentials) (name : String) (paths : List String) : Entry :=
  Stanza.template.entry () (c.settings name paths) []

/-- The entries of a registered artifact. -/
def Registry.packageEntries (registry : Registry) (id : String) : List Entry :=
  match registry.get? id with
  | some artifact => [Stanza.artifact.entry () artifact []]
  | none => []

namespace Node

/-- The entry of a value, if there is one. -/
def entriesOf {α : Type} (entry : α → Entry) : Except Refusal α → List Entry
  | .ok a => [entry a]
  | .error _ => []

/-- The entries of a node that stands for something without stanzas inside. -/
def plainTree (registry : Registry) (driver : String) (n : Node) : Keyword → List Entry
  | .scalar s => entriesOf (s.kind.entry s.keyword) (n.scalarSetting s)
  | .textMap m => entriesOf (Entry.textMap m.keyword) n.textEntries
  | .config => entriesOf (fun es => .block Config.keyword none (Config.entries driver es)) n.entries
  | .header =>
    entriesOf (fun (name, values) => .block Header.keyword none [.texts name values]) do
      pure (← n.givenName, ← n.textsValue)
  | .package =>
    match n.textValue with
    | .ok id => registry.packageEntries id
    | .error _ => []
  | .credentials c =>
    entriesOf (fun (name, paths) => c.entry name paths) do
      pure (← n.givenName, ← n.textsValue)
  | .job | .block _ => []

mutual
/-- The entries that a node denotes inside a task with the given driver. -/
def tree (registry : Registry) (driver : String) : Node → List Entry
  | ⟨stanza, name, value, values, children, fields⟩ =>
    let n : Node := ⟨stanza, name, value, values, children, fields⟩
    match Keyword.ofText? stanza with
    | some .job => [.block "job" name (trees registry driver children)]
    | some (.block s) =>
      match n.blockParts s with
      | .ok (label, settings) =>
        [s.entry label settings (trees registry (s.driverWithin settings driver) children)]
      | .error _ => []
    | some keyword => n.plainTree registry driver keyword
    | none => []
/-- The entries that several nodes denote. -/
def trees (registry : Registry) (driver : String) : List Node → List Entry
  | [] => []
  | n :: ns => n.tree registry driver ++ trees registry driver ns
end

end Node

/-- The tree that a description denotes. -/
def Description.tree (registry : Registry) (d : Description) : List Entry :=
  [.block "job" (some d.job) (Node.trees registry standardDriver d.stanzas)]

end JobFile
