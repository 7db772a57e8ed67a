import JobFile.Artifact.Registry
import JobFile.Catalog.Credentials
import JobFile.Catalog.Scalar
import JobFile.Proofs.Layout.Written

/-!
# Programs

* `Call`             : what a caller can ask for: lines, texts, blocks, values, and the stanzas of
  the catalog;
* `Program.script`   : the script of calls in a row, with the artifacts of a registry;
* `Program.paired`   : it is paired, whatever its calls are.

A failing call ends its program and every one around it, up to the call `caught` that holds the
failure back.  What a caller decides on the way is part of the program: a run only ever follows
one row of calls.
-/

namespace JobFile

/-- A call, with the calls that fill its block. -/
inductive Call where
  | line (text : String)
  | raw (text : String)
  | emptyBlock (keyword : String) (name : Option String)
  | block (keyword : String) (name : Option String) (body : List Call)
  /-- A value of a fixed kind, which may be absent. -/
  | value (kind : Kind) (key : String) (value : Option kind.Carrier)
  /-- A value of a fixed kind, which has to be there. -/
  | requiredValue (kind : Kind) (key : String) (value : Option kind.Carrier)
  /-- An untyped value, written by its shape. -/
  | anyValue (key : String) (value : Option Value)
  /-- An untyped value, written as a list. -/
  | listValue (key : String) (value : Option Value)
  | scalar (s : Scalar) (value : s.kind.Carrier)
  | job (name : String) (body : List Call)
  | stanza (s : Stanza) (label : s.naming.Label) (settings : s.Settings) (body : List Call)
  | textMap (m : TextMap) (entries : Entries String)
  | config (driver : String) (values : Entries Value)
  | header (name : String) (values : List String)
  | package (id : String)
  | credentials (c : Credentials) (name : String) (paths : List String)
  /-- A failure of the caller's own. -/
  | fail (why : Refusal)
  /-- Calls whose failure ends nothing but themselves. -/
  | caught (body : List Call)

/-- Calls in a row. -/
abbrev Program := List Call

mutual
/-- A call as a step of a script. -/
def Call.action (registry : Registry) : Call → Action
  | .line text => .step "line" false [.line text]
  | .raw text => .step "raw" false [.raw text]
  | .emptyBlock keyword name =>
    .step "empty block" false [.line (headerLine keyword name "\x7b\x7d")]
  | .block keyword name body =>
    .step "block" false [.block keyword name (Program.script registry body)]
  | .value kind key value => .step key false (Assign.optional (kind.assign key) value)
  | .requiredValue kind key value => .step key false (Assign.required key (kind.assign key) value)
  | .anyValue key value => .step key false (Assign.optional (Value.assign key) value)
  | .listValue key value => .step key false (Assign.optional (Value.assignList key) value)
  | .scalar s value => .step s.keyword false (s.write value)
  | .job name body => .step "job" false (Job.write name (Program.script registry body))
  | .stanza s label settings body =>
    .step s.keyword false (s.write label settings (Program.script registry body))
  | .textMap m entries => .step m.keyword false (m.write entries)
  | .config driver values => .step Config.keyword false (Config.write driver values)
  | .header name values => .step Header.keyword false (Header.write name values)
  | .package id => .step "package" false (registry.package id)
  | .credentials c name paths => .step c.keyword false (c.write name paths)
  | .fail why => .step "fail" false [.fail why]
  | .caught body => .step "caught" true (Program.script registry body)
/-- The script of calls in a row. -/
def Program.script (registry : Registry) : List Call → Script
  | [] => []
  | c :: cs => c.action registry :: Program.script registry cs
end

/-! ## Values are written by paired scripts -/

theorem Assign.token_paired (key token : String) : Script.Paired (Assign.token key token) :=
  ⟨trivial, trivial⟩

theorem Assign.textMap_paired (key : String) (es : Entries String) :
    Script.Paired (Assign.textMap key es) := by
  refine ⟨?_, trivial⟩
  show Script.Paired (es.flatMap _)
  rw [List.flatMap_def]
  apply Script.paired_flatten
  intro s hs
  obtain ⟨⟨k, v⟩, -, rfl⟩ := List.mem_map.1 hs
  exact Assign.token_paired k _

theorem Assign.optional_paired {α : Type} {write : α → Script} (h : ∀ a, Script.Paired (write a))
    (value : Option α) : Script.Paired (Assign.optional write value) := by
  cases value with
  | none => exact trivial
  | some a => exact h a

theorem Assign.required_paired {α : Type} {write : α → Script} (h : ∀ a, Script.Paired (write a))
    (key : String) (value : Option α) : Script.Paired (Assign.required key write value) := by
  cases value with
  | none => exact ⟨trivial, trivial⟩
  | some a => exact h a

theorem Kind.assign_paired (key : String) (kind : Kind) (v : kind.Carrier) :
    Script.Paired (kind.assign key v) := by
  cases kind with
  | document => exact ⟨trivial, trivial, trivial, trivial⟩
  | textMap => exact Assign.textMap_paired key v
  | _ => exact Assign.token_paired key _

theorem Value.assignList_paired (key : String) (v : Value) :
    Script.Paired (v.assignList key) := by
  unfold Value.assignList
  split
  · exact Assign.token_paired key _
  · exact ⟨trivial, trivial⟩

mutual
theorem Value.assign_paired (key : String) : ∀ v : Value, Script.Paired (v.assign key)
  | .boolean _ | .integer _ => Assign.token_paired key _
  | .double _ => ⟨trivial, trivial⟩
  | .text s => by
    unfold Value.assign
    split <;> exact Assign.token_paired key _
  | .list items => Value.assignList_paired key (.list items)
  | .map es => ⟨Value.assignAll_paired es, trivial⟩
theorem Value.assignAll_paired : ∀ es : List (String × Value), Script.Paired (Value.assignAll es)
  | [] => trivial
  | (k, v) :: es => (Value.assign_paired k v).append (Value.assignAll_paired es)
end

/-! ## Stanzas are written by paired scripts -/

theorem Field.assign_paired (f : Field) (value : Option f.kind.Carrier) :
    Script.Paired (f.assign value) := by
  unfold Field.assign
  split
  · exact Assign.required_paired (f.kind.assign_paired f.name) f.name _
  · exact Assign.optional_paired (f.kind.assign_paired f.name) _

theorem Field.check_paired (f : Field) (value : Option f.kind.Carrier) :
    Script.Paired (f.check value) := by
  unfold Field.check
  split
  · rename_i name fallback allowed mandatory required
    apply Assign.optional_paired
    intro s
    unfold Field.choose
    split
    · exact trivial
    · exact ⟨trivial, trivial⟩
  · exact trivial

theorem Record.assignments_paired : ∀ {fs : List Field} (r : Record fs),
    ∀ s ∈ r.assignments, Script.Paired s
  | [], .nil, s, hs => by cases hs
  | f :: _, .cons slot rest, s, hs => by
    rcases List.mem_cons.1 hs with rfl | hs
    · exact f.assign_paired _
    · exact Record.assignments_paired rest s hs

theorem Record.check_paired : ∀ {fs : List Field} (r : Record fs), Script.Paired r.check
  | [], .nil => trivial
  | f :: _, .cons _ rest => (f.check_paired _).append rest.check_paired

theorem Stanza.mem_arrange {α : Type} (s : Stanza) (xs : List α) (x : α) :
    x ∈ s.arrange xs ↔ x ∈ xs := by
  unfold Stanza.arrange
  split
  · simp only [List.mem_cons]
    grind
  · exact Iff.rfl

theorem Stanza.write_paired (s : Stanza) (label : s.naming.Label) (settings : s.Settings)
    {body : Script} (h : Script.Paired body) : Script.Paired (s.write label settings body) := by
  refine ⟨trivial, settings.check_paired.append ?_⟩
  split
  · exact ⟨trivial, trivial⟩
  · refine ⟨Script.Paired.append (Script.paired_flatten fun t ht => ?_) h, trivial⟩
    exact settings.assignments_paired t ((s.mem_arrange _ t).1 ht)

theorem Scalar.write_paired (s : Scalar) (value : s.kind.Carrier) :
    Script.Paired (s.write value) :=
  ⟨trivial, (s.field.check_paired _).append (s.field.assign_paired _)⟩

theorem Job.write_paired (name : String) {body : Script} (h : Script.Paired body) :
    Script.Paired (Job.write name body) :=
  ⟨trivial, h, trivial⟩

theorem TextMap.write_paired (m : TextMap) (entries : Entries String) :
    Script.Paired (m.write entries) :=
  ⟨trivial, Assign.textMap_paired m.keyword entries⟩

theorem Config.writeDefault_paired (values : Entries Value) :
    Script.Paired (Config.writeDefault values) := by
  unfold Config.writeDefault
  split
  · exact ⟨trivial, trivial⟩
  · refine Script.Paired.append ?_ (Assign.optional_paired (Value.assignList_paired "args") _)
    split
    · exact Assign.token_paired "command" _
    · exact ⟨trivial, trivial⟩
    · exact ⟨trivial, trivial⟩

theorem Config.write_paired (driver : String) (values : Entries Value) :
    Script.Paired (Config.write driver values) := by
  refine ⟨trivial, ?_, trivial⟩
  show Script.Paired (if driver = standardDriver then _ else _)
  split
  · exact Config.writeDefault_paired values
  · exact Value.assignAll_paired values

theorem Header.write_paired (name : String) (values : List String) :
    Script.Paired (Header.write name values) :=
  ⟨trivial, Assign.token_paired name _, trivial⟩

theorem Registry.package_paired (r : Registry) (id : String) : Script.Paired (r.package id) := by
  unfold Registry.package
  split
  · exact Stanza.artifact.write_paired () _ trivial
  · exact ⟨trivial, trivial⟩

theorem Credentials.write_paired (c : Credentials) (name : String) (paths : List String) :
    Script.Paired (c.write name paths) :=
  Stanza.template.write_paired () _ trivial

mutual
theorem Call.paired (registry : Registry) : ∀ c : Call, (c.action registry).Paired
  | .line _ | .raw _ | .emptyBlock _ _ | .fail _ => ⟨trivial, trivial⟩
  | .block _ _ body => ⟨Program.paired registry body, trivial⟩
  | .value kind key value => Assign.optional_paired (kind.assign_paired key) value
  | .requiredValue kind key value => Assign.required_paired (kind.assign_paired key) key value
  | .anyValue key value => Assign.optional_paired (Value.assign_paired key) value
  | .listValue key value => Assign.optional_paired (Value.assignList_paired key) value
  | .scalar s value => s.write_paired value
  | .job name body => Job.write_paired name (Program.paired registry body)
  | .stanza s label settings body => s.write_paired label settings (Program.paired registry body)
  | .textMap m entries => m.write_paired entries
  | .config driver values => Config.write_paired driver values
  | .header name values => Header.write_paired name values
  | .package id => registry.package_paired id
  | .credentials c name paths => c.write_paired name paths
  | .caught body => Program.paired registry body
theorem Program.paired (registry : Registry) : ∀ p : List Call,
    Script.Paired (Program.script registry p)
  | [] => trivial
  | c :: cs => ⟨Call.paired registry c, Program.paired registry cs⟩
end

end JobFile
