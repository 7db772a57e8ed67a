import JobFile.Proofs.Description.Received
import JobFile.Proofs.Description.Rendering
import JobFile.Proofs.Layout.Alike

/-!
# Templates in descriptions

* `Stanza.withData`        : the settings of a template with the given data, or none;
* `Stanza.template_quoting`, `Stanza.template_alike` : templates that differ in their data only
  quote it, and end alike;
* `Form.fillAll_third`     : a text among the members of an object goes to its field, and nowhere
  else;
* `Node.templateWith`      : the node of a template with the given data;
* `Node.Place`             : a description with a gap for a node;
* `Node.Place.closed`      : what holds of the scripts that fill it holds of the whole;
* `Description.template_quoting`, `Description.template_alike` : the same for the data of a template
  at any place of a description.
-/

namespace JobFile

/-- A record with the given value in its third field. -/
def Record.withThird {f g h : Field} {fs : List Field} :
    Record (f :: g :: h :: fs) → h.Slot → Record (f :: g :: h :: fs)
  | .cons a (.cons b (.cons _ rest)), slot => .cons a (.cons b (.cons slot rest))

namespace Stanza

/-- The settings of a template with the given data, or without any. -/
def withData (settings : template.Settings) (data : Option String) : template.Settings :=
  Record.withThird settings data

/-- A block that may hold stanzas is never written on one line. -/
theorem isShort_of_isContainer {s : Stanza} (h : s.isContainer = true) : s.isShort = false := by
  cases s <;> first | rfl | cases h

theorem write_closed {ι : Type} {P : (ι → Script) → Prop} (hP : Script.Closed P) {s : Stanza}
    (hs : s.isShort = false) (label : s.naming.Label) (settings : s.Settings)
    {write : ι → Script} (h : P write) : P fun i => s.write label settings (write i) := by
  unfold Stanza.write
  refine hP.prepend [.within s.keyword s.parents] (hP.prepend settings.check ?_)
  simp only [hs, Bool.false_and]
  exact hP.block s.keyword _ (hP.prepend _ h)

/-- **Templates that differ in their data only quote it.** -/
theorem template_quoting (settings : template.Settings) (body : Script) :
    Script.Quoting "data" False fun t => template.write () (withData settings (some t)) body := by
  match settings with
  | .cons mode (.cons signal (.cons data (.cons destination rest))) =>
    -- The destination is written before the data, which is not checked.
    have hdata := (Script.quoting_document "data").append rest.assignments.flatten
    have hfields := ((hdata.prepend ((requiredText "destination").assign destination)).prepend
      ((field .text "change_signal").assign signal)).prepend
        ((field .text "change_mode").assign mode)
    exact (((hfields.append body).block template.keyword none).prepend rest.check).prepend
      [.within template.keyword template.parents]

/-- **Templates that differ in their data only end alike**, also with one that has none. -/
theorem template_alike (settings : template.Settings) (body : Script)
    (data data' : Option String) :
    Script.Alike (template.write () (withData settings data) body)
      (template.write () (withData settings data') body) := by
  have hnone : ∀ data : Option String, Script.Alike ((field .document "data").assign data) [] := by
    intro data
    cases data with
    | none => exact .refl []
    | some t => exact Script.document_alike "data" t
  match settings with
  | .cons mode (.cons signal (.cons _ (.cons destination rest))) =>
    have hdata := ((hnone data).trans (hnone data').symm).append (.refl rest.assignments.flatten)
    have hfields := (Script.Alike.refl ((field .text "change_mode").assign mode)).append
      ((Script.Alike.refl ((field .text "change_signal").assign signal)).append
        ((Script.Alike.refl ((requiredText "destination").assign destination)).append hdata))
    exact (Script.Alike.refl [.within template.keyword template.parents]).append
      ((Script.Alike.refl rest.check).append
        ((hfields.append (.refl body)).block template.keyword none))

end Stanza

/-! ## Forms with one value to fill in -/

namespace Form

variable {f g h : Field} {fs : List Field}

/-- A form with the given value in its third field, or with that left open. -/
def setThird : Form (f :: g :: h :: fs) → Option h.Slot → Form (f :: g :: h :: fs)
  | .cons a (.cons b (.cons _ rest)), c => .cons a (.cons b (.cons c rest))

/-- What stands in the third field only shows there. -/
theorem finish_setThird {unset : h.Slot} (hunset : Slot.unfilled? h.mandatory = some unset)
    (d : Form (f :: g :: h :: fs)) (c : Option h.Slot) :
    (d.setThird c).finish =
      (d.setThird none).finish.map (Record.withThird · (c.getD unset)) := by
  match d with
  | .cons a (.cons b (.cons _ rest)) =>
    have hthird : (c <|> Slot.unfilled? h.mandatory) = some (c.getD unset) := by
      cases c with
      | none => exact hunset
      | some slot => rfl
    have hnone : ((none : Option h.Slot) <|> Slot.unfilled? h.mandatory) = some unset := hunset
    simp only [setThird, finish, hthird, hnone]
    cases a <|> Slot.unfilled? f.mandatory with
    | none => rfl
    | some a' =>
      cases b <|> Slot.unfilled? g.mandatory with
      | none => rfl
      | some b' => cases rest.finish <;> rfl

/-- Filling in another field does not look at the third. -/
theorem fill_setThird {key : String} (hkey : ¬h.name = key) (d : Form (f :: g :: h :: fs))
    (c : Option h.Slot) (known : List String) (value : Reading) :
    (d.setThird c).fill known key value = (d.fill known key value).map (setThird · c) := by
  match d with
  | .cons a (.cons b (.cons _ rest)) =>
    by_cases hf : f.name = key
    · cases a with
      | some a => simp only [setThird, fill, if_pos hf, Except.map]
      | none =>
        simp only [setThird, fill, if_pos hf]
        cases f.decode value <;> rfl
    · by_cases hg : g.name = key
      · cases b with
        | some b => simp only [setThird, fill_of_ne hf, fill, if_pos hg, Except.map]
        | none =>
          simp only [setThird, fill_of_ne hf, fill, if_pos hg]
          cases g.decode value <;> rfl
      · simp only [setThird, fill_of_ne hf, fill_of_ne hg, fill_of_ne hkey]
        cases rest.fill known key value <;> rfl

section Third

variable (hf : ¬f.name = h.name) (hg : ¬g.name = h.name)
include hf hg

theorem fill_third (d : Form (f :: g :: h :: fs)) (known : List String) (value : Reading) :
    (d.setThird none).fill known h.name value =
      (h.decode value).map fun slot => d.setThird (some slot) := by
  match d with
  | .cons a (.cons b (.cons _ rest)) =>
    simp only [setThird, fill_of_ne hf, fill_of_ne hg, fill, if_true]
    cases h.decode value <;> rfl

/-- The third field is not filled in twice. -/
theorem fill_third_again (d : Form (f :: g :: h :: fs)) (slot : h.Slot) (known : List String)
    (value : Reading) :
    (d.setThird (some slot)).fill known h.name value =
      .error (.mismatch (.duplicateField h.name)) := by
  match d with
  | .cons a (.cons b (.cons _ rest)) =>
    simp only [setThird, fill_of_ne hf, fill_of_ne hg, fill, if_true, Except.map]

end Third

variable {unset : h.Slot} (hunset : Slot.unfilled? h.mandatory = some unset)
  (hf : ¬f.name = h.name) (hg : ¬g.name = h.name)

include hunset in
/-- Members of other names decode to the same things, whatever stands in the third field. -/
theorem fillAll_setThird (known : List String) {ms : List (String × Json)}
    (hms : h.name ∉ Entries.keys ms) (d : Form (f :: g :: h :: fs)) (c : Option h.Slot) :
    (d.setThird c).fillAll known (Json.membersReading ms) =
      ((d.setThird none).fillAll known (Json.membersReading ms)).map
        (Record.withThird · (c.getD unset)) := by
  induction ms generalizing d with
  | nil => exact finish_setThird hunset d c
  | cons m ms ih =>
    obtain ⟨key, j⟩ := m
    simp only [Entries.keys, List.map_cons, List.mem_cons, not_or] at hms
    simp only [Json.membersReading, fillAll, fill_setThird hms.1]
    cases d.fill known key j.reading with
    | error why => rfl
    | ok e => exact ih hms.2 e

include hunset hf hg in
/-- **A value among the members of an object goes to its field**, and nowhere else. -/
theorem fillAll_third (known : List String) {before after : List (String × Json)}
    (hbefore : h.name ∉ Entries.keys before) (hafter : h.name ∉ Entries.keys after)
    (d : Form (f :: g :: h :: fs)) {j : Json} {slot : h.Slot}
    (hslot : h.decode j.reading = .ok slot) :
    (d.setThird none).fillAll known (Json.membersReading (before ++ (h.name, j) :: after)) =
      ((d.setThird none).fillAll known (Json.membersReading (before ++ after))).map
        (Record.withThird · slot) := by
  induction before generalizing d with
  | nil =>
    simp only [List.nil_append, Json.membersReading, fillAll, fill_third hf hg, hslot]
    exact fillAll_setThird hunset known hafter d (some slot)
  | cons m before ih =>
    obtain ⟨key, value⟩ := m
    simp only [Entries.keys, List.map_cons, List.mem_cons, not_or] at hbefore
    simp only [List.cons_append, Json.membersReading, fillAll, fill_setThird hbefore.1]
    cases d.fill known key value.reading with
    | error why => rfl
    | ok e => exact ih hbefore.2 e

include hf hg in
/-- Once the third field is filled in, the next member of its name is refused. -/
theorem fillAll_again (known : List String) (before : List (String × Json))
    (d : Form (f :: g :: h :: fs)) :
    ∃ why, ∀ slot j after, (d.setThird (some slot)).fillAll known
      (Json.membersReading (before ++ (h.name, j) :: after)) = .error why := by
  induction before generalizing d with
  | nil =>
    refine ⟨.mismatch (.duplicateField h.name), fun slot j after => ?_⟩
    simp only [List.nil_append, Json.membersReading, fillAll, fill_third_again hf hg]
    rfl
  | cons m before ih =>
    obtain ⟨key, value⟩ := m
    simp only [List.cons_append, Json.membersReading, fillAll]
    by_cases hkey : h.name = key
    · subst hkey
      simp only [fill_third_again hf hg]
      exact ⟨_, fun _ _ _ => rfl⟩
    · simp only [fill_setThird hkey]
      cases d.fill known key value.reading with
      | error why => exact ⟨why, fun _ _ _ => rfl⟩
      | ok e => exact ih e

include hf hg in
/-- Two members of one name are refused, whatever stands in one of them. -/
theorem fillAll_twice (known : List String) {before after : List (String × Json)}
    (hmore : h.name ∈ Entries.keys before ∨ h.name ∈ Entries.keys after)
    (d : Form (f :: g :: h :: fs)) {j : String → Json} {slot : String → h.Slot}
    (hslot : ∀ t, h.decode (j t).reading = .ok (slot t)) :
    ∃ why, ∀ t, (d.setThird none).fillAll known
      (Json.membersReading (before ++ (h.name, j t) :: after)) = .error why := by
  induction before generalizing d with
  | nil =>
    have hmem : h.name ∈ Entries.keys after := hmore.resolve_left (by simp [Entries.keys])
    obtain ⟨⟨key, v⟩, hm, hkey⟩ := List.mem_map.1 hmem
    obtain ⟨between, rest, hafter⟩ := List.append_of_mem hm
    cases (hkey : key = h.name)
    obtain ⟨why, hwhy⟩ := fillAll_again hf hg known between d
    refine ⟨why, fun t => ?_⟩
    simp only [List.nil_append, Json.membersReading, fillAll, fill_third hf hg, hslot, hafter]
    exact hwhy (slot t) v rest
  | cons m before ih =>
    obtain ⟨key, value⟩ := m
    simp only [List.cons_append, Json.membersReading, fillAll]
    by_cases hkey : h.name = key
    · subst hkey
      simp only [fill_third hf hg]
      cases h.decode value.reading with
      | error why => exact ⟨why, fun _ => rfl⟩
      | ok s =>
        obtain ⟨why, hwhy⟩ := fillAll_again hf hg known before d
        exact ⟨why, fun t => hwhy s (j t) after⟩
    · have hlater : h.name ∈ Entries.keys before ∨ h.name ∈ Entries.keys after := by
        simpa [Entries.keys, hkey] using hmore
      simp only [fill_setThird hkey]
      cases d.fill known key value.reading with
      | error why => exact ⟨why, fun _ => rfl⟩
      | ok e => exact ih hlater e

end Form

/-! ## Nodes -/

namespace Node

/-- A template with the given data among its fields, or without any. -/
def templateWith (name : Option String) (value : Option Value)
    (values : Option (List (String × Value))) (children : List Node)
    (before after : List (String × Json)) (data : Option String) : Node :=
  ⟨Stanza.template.keyword, name, value, values, children,
    before ++ (presentMember "data" Json.string data ++ after)⟩

section Templates

variable (name : Option String) (value : Option Value) (values : Option (List (String × Value)))
  (children : List Node) (before after : List (String × Json))

/-- Data that is given once goes to the settings, and changes nothing else in them. -/
theorem templateWith_settings (hbefore : "data" ∉ Entries.keys before)
    (hafter : "data" ∉ Entries.keys after) (data : Option String) :
    (templateWith name value values children before after data).settings .template =
      ((templateWith name value values children before after none).settings .template).map
        (Stanza.withData · data) := by
  have hnames : ¬(Stanza.field .text "change_mode").name = "data" ∧
      ¬(Stanza.field .text "change_signal").name = "data" := by decide
  let known := Stanza.template.fields.map Field.name
  let read (ms : List (String × Json)) :=
    (Form.blank Stanza.template.fields).fillAll known (Json.membersReading ms)
  have hread : read (before ++ (presentMember "data" Json.string data ++ after)) =
      (read (before ++ after)).map (Record.withThird · data) := by
    cases data with
    | some t =>
      have hdecode : (Stanza.field .document "data").decode (Json.string t).reading =
        .ok (some t) := rfl
      exact Form.fillAll_third rfl hnames.1 hnames.2 known hbefore hafter
        (Form.blank Stanza.template.fields) hdecode
    | none =>
      have hnone : (Stanza.field .document "data").name ∉ Entries.keys (before ++ after) := by
        simpa [Entries.keys, Stanza.field] using And.intro hbefore hafter
      exact Form.fillAll_setThird rfl known hnone (Form.blank Stanza.template.fields) none
  show (read (before ++ (presentMember "data" Json.string data ++ after))).mapError _ =
    ((read (before ++ after)).mapError _).map _
  rw [hread]
  cases read (before ++ after) <;> rfl

/-- Data that is given twice is refused, whatever it is. -/
theorem templateWith_settings_twice
    (hmore : "data" ∈ Entries.keys before ∨ "data" ∈ Entries.keys after) :
    ∃ why, ∀ t, (templateWith name value values children before after (some t)).settings .template =
      .error why := by
  have hnames : ¬(Stanza.field .text "change_mode").name = "data" ∧
      ¬(Stanza.field .text "change_signal").name = "data" := by decide
  have hdecode : ∀ t : String,
      (Stanza.field .document "data").decode (Json.string t).reading = .ok (some t) :=
    fun _ => rfl
  obtain ⟨why, hwhy⟩ := Form.fillAll_twice hnames.1 hnames.2
    (Stanza.template.fields.map Field.name) hmore (Form.blank Stanza.template.fields) hdecode
  let refuse (x : Except ReadError Stanza.template.Settings) :=
    x.mapError (Refusal.invalidOptions Stanza.template.keyword)
  exact ⟨.invalidOptions Stanza.template.keyword why, fun t => congrArg refuse (hwhy t)⟩

/-- A template holds no stanzas. -/
theorem templateWith_full (child : Node) (rest : List Node) (data : Option String)
    (registry : Registry) (driver : String) :
    (templateWith name value values (child :: rest) before after data).script registry driver =
      [.fail (.unknownField Stanza.template.keyword "children")] :=
  script_of_refusal Stanza.template.ofText?_keyword rfl registry driver

theorem templateWith_refused {data : Option String} {why : Refusal}
    (h : (templateWith name value values [] before after data).settings .template = .error why)
    (registry : Registry) (driver : String) :
    (templateWith name value values [] before after data).script registry driver =
      [.fail why] := by
  refine script_of_refusal Stanza.template.ofText?_keyword ?_ registry driver
  show ((templateWith name value values [] before after data).settings .template).map
    (Prod.mk ()) = _
  rw [h]
  rfl

theorem templateWith_written {data : Option String} {settings : Stanza.template.Settings}
    (h : (templateWith name value values [] before after data).settings .template = .ok settings)
    (registry : Registry) (driver : String) :
    (templateWith name value values [] before after data).script registry driver =
      Stanza.template.write () settings [] := by
  refine script_of_parts Stanza.template.ofText?_keyword ?_ registry driver
  show ((templateWith name value values [] before after data).settings .template).map
    (Prod.mk ()) = _
  rw [h]
  rfl

/-- Either no template of these fields is written, or the data only shows in its settings. -/
theorem templateWith_script (hbefore : "data" ∉ Entries.keys before)
    (hafter : "data" ∉ Entries.keys after) (registry : Registry) (driver : String) :
    (∃ why, ∀ data, (templateWith name value values children before after data).script registry
      driver = [.fail why]) ∨
    ∃ settings, ∀ data, (templateWith name value values children before after data).script
      registry driver = Stanza.template.write () (Stanza.withData settings data) [] := by
  cases children with
  | cons n ns =>
    exact .inl ⟨_, fun data => templateWith_full name value values before after n ns data registry
      driver⟩
  | nil =>
    have hdata := templateWith_settings name value values [] before after hbefore hafter
    cases hnone : (templateWith name value values [] before after none).settings .template with
    | error why =>
      refine .inl ⟨why, fun data => templateWith_refused name value values before after ?_ registry
        driver⟩
      rw [hdata, hnone]
      rfl
    | ok settings =>
      refine .inr ⟨settings, fun data => templateWith_written name value values before after ?_
        registry driver⟩
      rw [hdata, hnone]
      rfl

/-- Data that is given twice is not written. -/
theorem templateWith_script_twice
    (hmore : "data" ∈ Entries.keys before ∨ "data" ∈ Entries.keys after) (registry : Registry)
    (driver : String) :
    ∃ why, ∀ t, (templateWith name value values children before after (some t)).script registry
      driver = [.fail why] := by
  cases children with
  | cons n ns =>
    exact ⟨_, fun t => templateWith_full name value values before after n ns (some t) registry
      driver⟩
  | nil =>
    obtain ⟨why, hwhy⟩ := templateWith_settings_twice name value values [] before after hmore
    exact ⟨why, fun t => templateWith_refused name value values before after (hwhy t) registry
      driver⟩

/-- **Template nodes that differ in their data only quote it.** -/
theorem templateWith_quoting (registry : Registry) (driver : String) :
    Script.Quoting "data" False fun t =>
      (templateWith name value values children before after (some t)).script registry driver := by
  by_cases hmore : "data" ∈ Entries.keys before ∨ "data" ∈ Entries.keys after
  · obtain ⟨why, h⟩ := templateWith_script_twice name value values children before after hmore
      registry driver
    simp only [h]
    exact Script.quoting_fail "data" False why
  · rw [not_or] at hmore
    rcases templateWith_script name value values children before after hmore.1 hmore.2 registry
      driver with ⟨why, h⟩ | ⟨settings, h⟩
    · simp only [h]
      exact Script.quoting_fail "data" False why
    · simp only [h]
      exact Stanza.template_quoting settings []

/-- **Template nodes that differ in their data only end alike**, if it is given once. -/
theorem templateWith_alike (hbefore : "data" ∉ Entries.keys before)
    (hafter : "data" ∉ Entries.keys after) (registry : Registry) (driver : String)
    (data data' : Option String) :
    Script.Alike
      ((templateWith name value values children before after data).script registry driver)
      ((templateWith name value values children before after data').script registry driver) := by
  rcases templateWith_script name value values children before after hbefore hafter registry
    driver with ⟨why, h⟩ | ⟨settings, h⟩
  · rw [h data, h data']
    exact .refl [.fail why]
  · rw [h data, h data']
    exact Stanza.template_alike settings [] data data'

end Templates

/-! ### What stands inside a node -/

section Inside

variable (stanza : String) (name : Option String) (value : Option Value)
  (values : Option (List (String × Value))) (fields : List (String × Json))

/-- The parts of a block do not depend on what stands inside it. -/
theorem blockParts_congr (children others : List Node) (h : children.isEmpty = others.isEmpty)
    (s : Stanza) :
    blockParts ⟨stanza, name, value, values, children, fields⟩ s =
      blockParts ⟨stanza, name, value, values, others, fields⟩ s := by
  unfold blockParts withoutChildren
  simp only [h]
  rfl

/-- What holds no stanzas refuses them, whichever they are. -/
theorem script_full {stanza : String} {keyword : Keyword}
    (hword : Keyword.ofText? stanza = some keyword) (hjob : keyword ≠ .job)
    (hblock : ∀ s, keyword ≠ .block s) (registry : Registry) (driver : String) :
    ∃ why, ∀ child rest,
      script registry driver ⟨stanza, name, value, values, child :: rest, fields⟩ =
        [.fail why] := by
  cases keyword with
  | job => exact absurd rfl hjob
  | block s => exact absurd rfl (hblock s)
  | scalar s =>
    refine ⟨.unknownField stanza "children", fun child rest => ?_⟩
    simp only [script, hword]
    cases s <;> rfl
  | textMap | config | package =>
    refine ⟨.unknownField stanza "children", fun child rest => ?_⟩
    simp only [script, hword]
    rfl
  | header | credentials =>
    -- These are asked for their name first.
    cases name with
    | none =>
      refine ⟨.missingValue stanza "name", fun child rest => ?_⟩
      simp only [script, hword]
      rfl
    | some name =>
      refine ⟨.unknownField stanza "children", fun child rest => ?_⟩
      simp only [script, hword]
      rfl

end Inside

theorem scripts_append (registry : Registry) (driver : String) (ns ms : List Node) :
    scripts registry driver (ns ++ ms) =
      scripts registry driver ns ++ scripts registry driver ms := by
  induction ns with
  | nil => rfl
  | cons n ns ih => rw [List.cons_append, scripts, scripts, ih, List.append_assoc]

/-- What holds of the scripts inside a node holds of the scripts of the node. -/
theorem inside_closed {ι : Type} {P : (ι → Script) → Prop} (hP : Script.Closed P)
    {registry : Registry} {child : ι → Node} {rest : ι → List Node}
    (h : ∀ driver, P fun i => scripts registry driver (child i :: rest i))
    (stanza : String) (name : Option String) (value : Option Value)
    (values : Option (List (String × Value))) (fields : List (String × Json)) (driver : String) :
    P fun i => script registry driver ⟨stanza, name, value, values, child i :: rest i, fields⟩ := by
  cases hword : Keyword.ofText? stanza with
  | none =>
    simp only [script, hword]
    exact hP.fail _
  | some keyword =>
    cases keyword with
    | job =>
      simp only [script, hword]
      cases name with
      | none => exact hP.fail (.missingValue stanza "name")
      | some name =>
        exact hP.prepend [.within "job" [Context.root]] (hP.block "job" (some name) (h driver))
    | block s =>
      -- Any child will do to find out what the parts are.
      let other : Node := { stanza := "" }
      have hparts := fun i => blockParts_congr stanza name value values fields
        (child i :: rest i) [other] rfl s
      cases hok : blockParts ⟨stanza, name, value, values, [other], fields⟩ s with
      | error why =>
        have hscript := fun i => script_of_refusal hword ((hparts i).trans hok) registry driver
        simp only [hscript]
        exact hP.fail why
      | ok parts =>
        have hcontainer : s.isContainer = true := by
          cases hs : s.isContainer with
          | true => rfl
          | false => cases children_of_blockParts hok hs
        have hscript := fun i => script_of_parts hword ((hparts i).trans hok) registry driver
        simp only [hscript]
        exact Stanza.write_closed hP (Stanza.isShort_of_isContainer hcontainer) parts.1 parts.2
          (h _)
    | scalar | textMap | config | header | package | credentials =>
      obtain ⟨why, hwhy⟩ := script_full name value values fields hword (by simp) (by simp)
        registry driver
      simp only [hwhy]
      exact hP.fail why

/-! ### Places in a description -/

/-- Stanzas with a gap for one more among them, inside any others. -/
inductive Place where
  | beside (before after : List Node)
  | inside (before : List Node) (stanza : String) (name : Option String) (value : Option Value)
    (values : Option (List (String × Value))) (place : Place) (fields : List (String × Json))
    (after : List Node)

namespace Place

/-- Fills the gap. -/
def fill (n : Node) : Place → List Node
  | beside before after => before ++ (n :: after)
  | inside before stanza name value values place fields after =>
    before ++ (⟨stanza, name, value, values, place.fill n, fields⟩ :: after)

theorem fill_eq_cons (p : Place) : ∃ (first : Node → Node) (rest : Node → List Node), ∀ n,
    p.fill n = first n :: rest n := by
  cases p with
  | beside before after =>
    cases before with
    | nil => exact ⟨fun n => n, fun _ => after, fun _ => rfl⟩
    | cons m before => exact ⟨fun _ => m, fun n => before ++ (n :: after), fun _ => rfl⟩
  | inside before stanza name value values place fields after =>
    cases before with
    | nil =>
      exact ⟨fun n => ⟨stanza, name, value, values, place.fill n, fields⟩, fun _ => after,
        fun _ => rfl⟩
    | cons m before =>
      exact ⟨fun _ => m, fun n => before ++
        (⟨stanza, name, value, values, place.fill n, fields⟩ :: after), fun _ => rfl⟩

/-- **What holds of the scripts that fill the gap holds of the whole.** -/
theorem closed {ι : Type} {P : (ι → Script) → Prop} (hP : Script.Closed P) {registry : Registry}
    {n : ι → Node} (h : ∀ driver, P fun i => (n i).script registry driver) (p : Place) :
    ∀ driver, P fun i => Node.scripts registry driver (p.fill (n i)) := by
  induction p with
  | beside before after =>
    intro driver
    simp only [fill, scripts_append, scripts]
    exact hP.prepend _ (hP.append _ (h driver))
  | inside before stanza name value values place fields after ih =>
    intro driver
    obtain ⟨first, rest, hfill⟩ := place.fill_eq_cons
    simp only [hfill] at ih
    simp only [fill, scripts_append, scripts, hfill]
    exact hP.prepend _ (hP.append _
      (inside_closed hP ih stanza name value values fields driver))

end Place

end Node

/-! ## Descriptions -/

namespace Description

variable (registry : Registry) (job : String) (p : Node.Place) (name : Option String)
  (value : Option Value) (values : Option (List (String × Value))) (children : List Node)
  (before after : List (String × Json))

/-- What holds of the scripts of nodes holds of the descriptions that they fill. -/
theorem closed {ι : Type} {P : (ι → Script) → Prop} (hP : Script.Closed P) {n : ι → Node}
    (h : ∀ driver, P fun i => (n i).script registry driver) :
    P fun i => Description.script registry ⟨job, p.fill (n i)⟩ :=
  hP.prepend [.within "job" [Context.root]]
    (hP.block "job" (some job) (p.closed hP h standardDriver))

/-- A description writes the same things around the data of a template, whatever it is. -/
theorem template_quoting :
    Script.Quoting "data" False fun t => Description.script registry
      ⟨job, p.fill (.templateWith name value values children before after (some t))⟩ :=
  closed registry job p (Script.quoting_closed "data" False)
    (Node.templateWith_quoting name value values children before after registry)

/-- The data of a template that is given once does not decide how a description ends. -/
theorem template_alike (hbefore : "data" ∉ Entries.keys before)
    (hafter : "data" ∉ Entries.keys after) (data data' : Option String) :
    Script.Alike
      (Description.script registry
        ⟨job, p.fill (.templateWith name value values children before after data)⟩)
      (Description.script registry
        ⟨job, p.fill (.templateWith name value values children before after data')⟩) :=
  closed registry job p (Script.alike_closed (Option String))
    (Node.templateWith_alike name value values children before after hbefore hafter registry)
    data data'

end Description

end JobFile
