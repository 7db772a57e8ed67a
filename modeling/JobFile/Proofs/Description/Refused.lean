import JobFile.Proofs.Description.Rendering
import JobFile.Proofs.Record.Unbroken

/-!
# What a refused description is refused for

* `Refusal.IsOfData` : neither is a stanza in the wrong block, nor can its settings not be read;
* `Value.failsOnly_checkShape`, `Record.failsOnly_checkChoices`, `Record.failsOnly_checkRequired`,
  `Config.failsOnly_check` : so it is with the checks of values, records and settings by driver;
* `Refusal.IsWorded` : if settings cannot be read, it is for their data;
* `Node.failsOnly_check`, `Description.failsOnly_check` : so it is with every description;
* `Description.isWorded_of_render` : and with what keeps it from being rendered.
-/

namespace JobFile

/-! ## Data -/

/-- Neither is a stanza in the wrong block, nor can its settings not be read. -/
def Refusal.IsOfData : Refusal → Prop
  | .misplaced .. | .invalidOptions .. => False
  | _ => True

namespace Value

variable (field : String)

mutual
theorem failsOnly_checkItem : ∀ v : Value, FailsOnly Refusal.IsOfData (v.checkItem field)
  | .boolean _ | .integer _ | .text _ => failsOnly_ok ()
  | .double _ | .map _ => failsOnly_error trivial
  | .list items => failsOnly_checkItems items
theorem failsOnly_checkItems : ∀ vs : List Value,
    FailsOnly Refusal.IsOfData (checkItems field vs)
  | [] => failsOnly_ok ()
  | v :: vs => (failsOnly_checkItem v).bind fun _ => failsOnly_checkItems vs
end

mutual
theorem failsOnly_checkShape (key : String) : ∀ v : Value,
    FailsOnly Refusal.IsOfData (v.checkShape key)
  | .boolean _ | .integer _ | .text _ => failsOnly_ok ()
  | .double _ => failsOnly_error trivial
  | .list items => failsOnly_checkItems key items
  | .map es => failsOnly_checkShapes es
theorem failsOnly_checkShapes : ∀ es : List (String × Value),
    FailsOnly Refusal.IsOfData (checkShapes es)
  | [] => failsOnly_ok ()
  | (k, v) :: es => (failsOnly_checkShape k v).bind fun _ => failsOnly_checkShapes es
end

theorem failsOnly_checkScalar (v : Value) : FailsOnly Refusal.IsOfData (v.checkScalar field) := by
  cases v with
  | boolean | integer | text => exact failsOnly_ok ()
  | double | list | map => exact failsOnly_error trivial

theorem failsOnly_checkScalars (es : List (String × Value)) :
    FailsOnly Refusal.IsOfData (checkScalars es) := by
  induction es with
  | nil => exact failsOnly_ok ()
  | cons e es ih => exact (failsOnly_checkScalar e.1 e.2).bind fun _ => ih

end Value

namespace Field

theorem failsOnly_choose (name : String) (allowed : List String) (s : String) :
    FailsOnly Refusal.IsOfData (choose name allowed s) := by
  unfold choose
  split
  · exact failsOnly_ok ()
  · exact failsOnly_error trivial

theorem failsOnly_checkChoice (f : Field) (value : Option f.kind.Carrier) :
    FailsOnly Refusal.IsOfData (f.checkChoice value) := by
  unfold checkChoice
  split
  · split
    · exact failsOnly_choose _ _ _
    · exact failsOnly_ok ()
  · exact failsOnly_ok ()

theorem failsOnly_checkRequired (keyword : String) (f : Field) (value : Option f.kind.Carrier) :
    FailsOnly Refusal.IsOfData (f.checkRequired keyword value) := by
  unfold checkRequired
  split
  · exact failsOnly_error trivial
  · exact failsOnly_ok ()

end Field

namespace Record

theorem failsOnly_checkChoices : ∀ {fs : List Field} (r : Record fs),
    FailsOnly Refusal.IsOfData r.checkChoices
  | [], .nil => failsOnly_ok ()
  | f :: _, .cons _ rest =>
    (f.failsOnly_checkChoice _).bind fun _ => rest.failsOnly_checkChoices

theorem failsOnly_checkRequired (keyword : String) : ∀ {fs : List Field} (r : Record fs),
    FailsOnly Refusal.IsOfData (r.checkRequired keyword)
  | [], .nil => failsOnly_ok ()
  | f :: _, .cons _ rest =>
    (f.failsOnly_checkRequired keyword _).bind fun _ => rest.failsOnly_checkRequired keyword

end Record

theorem Config.failsOnly_check (driver : String) (values : Entries Value) :
    FailsOnly Refusal.IsOfData (check driver values) := by
  have hcommand : ∀ command, FailsOnly Refusal.IsOfData (checkCommand command) := by
    intro command
    unfold checkCommand
    split
    · exact failsOnly_ok ()
    · exact failsOnly_error trivial
    · exact failsOnly_error trivial
  have hargs : ∀ args, FailsOnly Refusal.IsOfData (checkArgs args) := by
    rintro (_ | v)
    · exact failsOnly_ok ()
    · exact Value.failsOnly_checkItem "args" v
  unfold check
  split
  · split
    · exact failsOnly_error trivial
    · exact (hcommand _).bind fun _ => hargs _
  · exact Value.failsOnly_checkShapes values

theorem Scalar.failsOnly_checkKind (stanza : String) (s : Scalar) (v : Value) :
    FailsOnly Refusal.IsOfData (s.checkKind stanza v) := by
  unfold checkKind
  split
  case h_6 => exact Value.failsOnly_checkItem stanza _
  case h_7 => exact failsOnly_error trivial
  all_goals exact failsOnly_ok ()

theorem Scalar.failsOnly_checkChoice (s : Scalar) (v : Value) :
    FailsOnly Refusal.IsOfData (s.checkChoice v) := by
  unfold checkChoice
  split
  · exact Field.failsOnly_choose "type" types _
  · exact failsOnly_ok ()

/-! ## Descriptions -/

/-- If settings cannot be read, it is for their data. -/
def Refusal.IsWorded : Refusal → Prop
  | .invalidOptions _ why => why.IsMismatch
  | _ => True

theorem Refusal.IsOfData.isWorded : ∀ why : Refusal, why.IsOfData → why.IsWorded
  | .invalidOptions .., h => h.elim
  | .misplaced .., h => h.elim
  | .missingValue .., _ | .unsupportedKind .., _ | .invalidChoice .., _ | .unknownField .., _
  | .unknownArtifact .., _ | .unknownStanza .., _ => trivial

theorem FailsOnly.isWorded {α : Type} {x : Except Refusal α} (h : FailsOnly Refusal.IsOfData x) :
    FailsOnly Refusal.IsWorded x :=
  h.mono Refusal.IsOfData.isWorded

theorem failsOnly_checkPlace (stanza : String) (allowed : List String) (parent : String) :
    FailsOnly Refusal.IsWorded (checkPlace stanza allowed parent) := by
  unfold checkPlace
  split
  · exact failsOnly_ok ()
  · exact failsOnly_error trivial

theorem Registry.failsOnly_checkPackage (registry : Registry) (parent id : String) :
    FailsOnly Refusal.IsWorded (registry.checkPackage parent id) := by
  unfold checkPackage
  split
  · exact failsOnly_error trivial
  · exact (failsOnly_checkPlace _ _ parent).bind fun _ =>
      (Record.failsOnly_checkRequired _ _).isWorded

namespace Node

variable (n : Node)

theorem failsOnly_withoutChildren : FailsOnly Refusal.IsWorded n.withoutChildren := by
  unfold withoutChildren
  split
  · exact failsOnly_ok ()
  · exact failsOnly_error trivial

theorem failsOnly_withoutFields : FailsOnly Refusal.IsWorded n.withoutFields := by
  unfold withoutFields
  split
  · exact failsOnly_ok ()
  · exact failsOnly_error trivial

theorem failsOnly_givenName : FailsOnly Refusal.IsWorded n.givenName := by
  unfold givenName
  split
  · exact failsOnly_ok _
  · exact failsOnly_error trivial

theorem failsOnly_givenValue : FailsOnly Refusal.IsWorded n.givenValue := by
  unfold givenValue
  split
  · exact failsOnly_ok _
  · exact failsOnly_error trivial

theorem failsOnly_givenText (v : Value) : FailsOnly Refusal.IsWorded (n.givenText v) := by
  unfold givenText
  split
  · exact failsOnly_ok _
  · exact failsOnly_error trivial

theorem failsOnly_checkName (s : Stanza) : FailsOnly Refusal.IsWorded (n.checkName s) := by
  unfold checkName
  split
  · exact failsOnly_error trivial
  · exact failsOnly_ok ()

/-- The members of a node have been read already. -/
theorem failsOnly_settings (s : Stanza) : FailsOnly Refusal.IsWorded (n.settings s) :=
  (Record.failsOnly_decode s.recordName s.fields n.fields).mapError fun _ h => h

theorem failsOnly_checkedSettings (s : Stanza) :
    FailsOnly Refusal.IsWorded (n.checkedSettings s) := by
  unfold checkedSettings
  split
  · exact (n.failsOnly_settings s).bind fun _ =>
      (n.failsOnly_checkName s).bind fun _ => failsOnly_ok _
  · refine (n.failsOnly_checkName s).bind fun _ => ?_
    split
    · exact n.failsOnly_withoutChildren.bind fun _ => n.failsOnly_settings s
    · exact n.failsOnly_settings s

theorem failsOnly_checkPlain (registry : Registry) (parent driver : String) (k : Keyword) :
    FailsOnly Refusal.IsWorded (n.checkPlain registry parent driver k) := by
  have hempty {c : Except Refusal Unit} (h : FailsOnly Refusal.IsWorded c) :
      FailsOnly Refusal.IsWorded (n.withoutChildren >>= fun _ => n.withoutFields >>= fun _ => c) :=
    n.failsOnly_withoutChildren.bind fun _ => n.failsOnly_withoutFields.bind fun _ => h
  cases k with
  | scalar s =>
    refine hempty (n.failsOnly_givenValue.bind fun v => ?_)
    refine (s.failsOnly_checkKind n.stanza v).isWorded.bind fun _ => ?_
    exact (failsOnly_checkPlace _ _ parent).bind fun _ => (s.failsOnly_checkChoice v).isWorded
  | textMap m =>
    refine hempty ((Value.failsOnly_checkScalars _).isWorded.bind fun _ => ?_)
    exact failsOnly_checkPlace _ _ parent
  | config =>
    refine hempty ((failsOnly_checkPlace _ _ parent).bind fun _ => ?_)
    exact (Config.failsOnly_check driver _).isWorded
  | header | credentials =>
    refine n.failsOnly_givenName.bind fun _ => hempty (n.failsOnly_givenValue.bind fun v => ?_)
    refine (Value.failsOnly_checkItem n.stanza v).isWorded.bind fun _ => ?_
    exact failsOnly_checkPlace _ _ parent
  | package =>
    refine hempty (n.failsOnly_givenValue.bind fun v => ?_)
    exact (n.failsOnly_givenText v).bind fun id => registry.failsOnly_checkPackage parent id
  | job | block => exact failsOnly_ok ()

mutual
theorem failsOnly_check (registry : Registry) : ∀ (n : Node) (parent driver : String),
    FailsOnly Refusal.IsWorded (n.check registry parent driver)
  | ⟨stanza, name, value, values, children, fields⟩, parent, driver => by
    unfold check
    split
    · refine (failsOnly_givenName _).bind fun _ => ?_
      refine (failsOnly_checkPlace _ _ parent).bind fun _ => ?_
      exact failsOnly_checkAll registry children _ _
    · refine (failsOnly_checkedSettings _ _).bind fun settings => ?_
      refine (failsOnly_checkPlace _ _ parent).bind fun _ => ?_
      refine settings.failsOnly_checkChoices.isWorded.bind fun _ => ?_
      refine (settings.failsOnly_checkRequired _).isWorded.bind fun _ => ?_
      exact failsOnly_checkAll registry children _ _
    · exact failsOnly_checkPlain _ registry parent driver _
    · exact failsOnly_error trivial
theorem failsOnly_checkAll (registry : Registry) : ∀ (ns : List Node) (parent driver : String),
    FailsOnly Refusal.IsWorded (checkAll registry parent driver ns)
  | [], _, _ => failsOnly_ok ()
  | n :: ns, parent, driver =>
    (failsOnly_check registry n parent driver).bind fun _ =>
      failsOnly_checkAll registry ns parent driver
end

end Node

/-- **A description is refused for its data**, wherever its settings cannot be read. -/
theorem Description.failsOnly_check (d : Description) (registry : Registry) :
    FailsOnly Refusal.IsWorded (d.check registry) :=
  Node.failsOnly_checkAll registry d.stanzas "job" standardDriver

/-- So no refusal leaves its reason to the reader of texts. -/
theorem Description.isWorded_of_render {registry : Registry} {d : Description} {why : Refusal}
    (h : d.render registry = .error (.refused why)) : why.IsWorded := by
  have hrender := d.render_of_check registry
  cases hcheck : d.check registry with
  | ok u =>
    rw [hcheck] at hrender
    cases hrender.symm.trans h
  | error why' =>
    rw [hcheck] at hrender
    cases hrender.symm.trans h
    exact d.failsOnly_check registry why hcheck

end JobFile
