import JobFile.Proofs.Description.Built
import JobFile.Proofs.Description.Place
import JobFile.Proofs.Description.Untyped

/-!
# Artifacts in place and by name

* `Artifact.sorted`    : an artifact with its options in the order of their keys;
* `Members.With`       : members with one more among them;
* `Definition.settings_of_decode` : the members of a definition, without its name, are the settings
  of an artifact block;
* `Node.decode_artifact` : as members of a node they are these settings as they arrive;
* `Script.same_closed`, `Node.Place.render_congr` : nodes that write the same can be exchanged in
  any place;
* `Definition.inline_sorted` : an artifact that is written in place is rendered as the package with
  its options sorted.

A node keeps its members as untyped JSON, whose objects are sorted, before its stanza is known.  A
definition is read as what it is, and keeps the options in the order in which they stand.
-/

namespace JobFile

namespace Artifact

/-- The options of an artifact. -/
def options : Artifact → Option (Entries String)
  | .cons _ (.cons _ (.cons _ (.cons options .nil))) => options

/-- An artifact with its options in the order of their keys. -/
def sorted : Artifact → Artifact
  | .cons source (.cons destination (.cons mode (.cons options .nil))) =>
    .cons source (.cons destination (.cons mode (.cons (options.map (Json.insertAll [])) .nil)))

theorem received_eq_sorted : ∀ a : Artifact, Record.received a = a.sorted
  | .cons source (.cons destination (.cons mode (.cons _ .nil))) => by
    cases source <;> cases destination <;> cases mode <;> rfl

theorem sorted_of_ascending : ∀ {a : Artifact}, (∀ es ∈ a.options, Entries.Ascending es) →
    a.sorted = a
  | .cons _ (.cons _ (.cons _ (.cons none .nil))), _ => rfl
  | .cons source (.cons destination (.cons mode (.cons (some es) .nil))), h => by
    have hes : Json.insertAll [] es = es := Kind.textMap.received_of_ascending (h es rfl)
    exact congrArg (fun es : Entries String =>
      (Record.cons source (.cons destination (.cons mode (.cons (some es) .nil))) : Artifact)) hes

end Artifact

/-! ## Members with one more among them -/

/-- The second members are the first ones with one more among them. -/
inductive Members.With (key : String) (value : Reading) : Members → Members → Prop
  | here (ms : Members) : With key value ms (.member (some key) value ms)
  | later {ms ns : Members} (k : Option String) (v : Reading) (h : With key value ms ns) :
    With key value (.member k v ms) (.member k v ns)

/-! ## Definitions -/

/-- Which names are known makes a difference to errors only. -/
theorem Form.fill_known {fs : List Field} {F G : Form fs} {known : List String} {key : String}
    {value : Reading} (h : F.fill known key value = .ok G) (known' : List String) :
    F.fill known' key value = .ok G := by
  induction F with
  | nil => cases h
  | @cons f fs filled rest ih =>
    by_cases hkey : f.name = key
    · cases filled <;> rw [Form.fill, if_pos hkey] at h ⊢
      · exact h
      · cases h
    · rw [Form.fill_of_ne hkey] at h ⊢
      obtain ⟨G', hG, rfl⟩ := ok_of_map h
      rw [ih hG]
      rfl

namespace Definition

/-- The name of a definition. -/
abbrev idField : Field := { name := "id", kind := .text, mandatory := true }

/-- The source of a definition, which has to be there. -/
abbrev sourceField : Field := { name := "source", kind := .text, mandatory := true }

/-- The source of an artifact block, which may be left out until the block is written. -/
abbrev settingsField : Field := Stanza.requiredText "source"

variable {fs : List Field} {known : List String} {id : String} {source : Option String}
  {rest : Form fs}

/-- A field other than the name is filled in as one of the settings. -/
theorem fill_settings {filled : Option String} {key : String} {value : Reading}
    {G : Form (idField :: sourceField :: fs)} (hkey : "id" ≠ key)
    (h : (Form.cons (f := idField) filled (.cons (f := sourceField) source rest)).fill known key
      value = .ok G) (known' : List String) :
    ∃ source' rest', G = .cons (f := idField) filled (.cons (f := sourceField) source' rest') ∧
      (Form.cons (f := settingsField) (source.map some) rest).fill known' key value =
        .ok (.cons (f := settingsField) (source'.map some) rest') := by
  rw [Form.fill_of_ne hkey] at h
  obtain ⟨G, hG, rfl⟩ := ok_of_map h
  by_cases hsource : "source" = key
  · subst hsource
    cases source with
    | some s => cases hG
    | none =>
      obtain ⟨s, hs, rfl⟩ := ok_of_map hG
      rw [Reading.eq_string_of_decodeText hs]
      exact ⟨some s, rest, rfl, rfl⟩
  · rw [Form.fill_of_ne hsource] at hG
    obtain ⟨rest', hrest, rfl⟩ := ok_of_map hG
    refine ⟨source, rest', rfl, ?_⟩
    rw [Form.fill_of_ne hsource, Form.fill_known hrest known']
    rfl

/-- Behind the name of a definition stand the settings of an artifact block. -/
theorem fillAll_settings (known' : List String) :
    ∀ (ms : Members) {source : Option String} {rest : Form fs}
      {r : Record (idField :: sourceField :: fs)},
      (Form.cons (f := idField) (some id) (.cons (f := sourceField) source rest)).fillAll known ms =
        .ok r →
      ∃ s r', r = .cons (f := idField) id (.cons (f := sourceField) s r') ∧
        (Form.cons (f := settingsField) (source.map some) rest).fillAll known' ms =
          .ok (.cons (f := settingsField) (some s) r')
  | .close, source, rest, r, h => by
    obtain ⟨r, hr, rfl⟩ := ok_of_map h
    cases source with
    | none => cases hr
    | some s =>
      obtain ⟨r', hr', rfl⟩ := ok_of_map hr
      refine ⟨s, r', rfl, ?_⟩
      show Except.map _ rest.finish = _
      rw [hr']
      rfl
  | .broken, _, _, _, h | .member none _ _, _, _, _, h => nomatch h
  | .member (some key) value tail, source, rest, r, h => by
    obtain ⟨G, hG, htail⟩ := ok_of_bind h
    by_cases hkey : "id" = key
    · subst hkey
      cases hG
    · obtain ⟨source', rest', rfl, hfill⟩ := fill_settings hkey hG known'
      obtain ⟨s, r', hr, hall⟩ := fillAll_settings known' tail htail
      refine ⟨s, r', hr, ?_⟩
      rw [Form.fillAll, hfill]
      exact hall

/-- The name of a definition may stand anywhere among its members. -/
theorem fillAll_with (known' : List String) {ms ns : Members}
    (hwith : ms.With "id" (.string id) ns) {filled source : Option String} {rest : Form fs}
    {r : Record (idField :: sourceField :: fs)}
    (h : (Form.cons (f := idField) filled (.cons (f := sourceField) source rest)).fillAll known ns =
      .ok r) :
    filled = none ∧ ∃ s r', r = .cons (f := idField) id (.cons (f := sourceField) s r') ∧
      (Form.cons (f := settingsField) (source.map some) rest).fillAll known' ms =
        .ok (.cons (f := settingsField) (some s) r') := by
  induction hwith generalizing filled source rest with
  | here ms =>
    obtain ⟨G, hG, htail⟩ := ok_of_bind h
    cases filled with
    | some id' => cases hG
    | none =>
      cases hG
      exact ⟨rfl, fillAll_settings known' ms htail⟩
  | @later ms ns k v hwith ih =>
    cases k with
    | none => cases h
    | some key =>
      obtain ⟨G, hG, htail⟩ := ok_of_bind h
      by_cases hkey : "id" = key
      · subst hkey
        cases filled with
        | some id' => cases hG
        | none =>
          obtain ⟨id', -, rfl⟩ := ok_of_map hG
          obtain ⟨hnone, -⟩ := ih htail
          cases hnone
      · obtain ⟨source', rest', rfl, hfill⟩ := fill_settings hkey hG known'
        obtain ⟨hnone, s, r', hr, hall⟩ := ih htail
        refine ⟨hnone, s, r', hr, ?_⟩
        rw [Form.fillAll, hfill]
        exact hall

/-- **The members of a definition, without its name, are the settings of an artifact block.** -/
theorem settings_of_decode {ms ns : Members} {d : Definition}
    (hwith : ms.With "id" (.string id) ns) (h : decode (.object ns) = .ok d) (name : String) :
    d.id = id ∧ Record.decode name Stanza.artifact.fields (.object ms) = .ok d.artifact := by
  obtain ⟨r, hr, rfl⟩ := ok_of_map h
  obtain ⟨-, s, r', rfl, hall⟩ := fillAll_with (Stanza.artifact.fields.map Field.name) hwith hr
  match r' with
  | .cons _ (.cons _ (.cons _ .nil)) => exact ⟨rfl, hall⟩

end Definition

/-! ## Nodes -/

namespace Node

/-- Members that are not shared are put among the fields. -/
theorem decodeMembers_untyped {names : List String} (hfree : ∀ k ∈ names, k ∉ sharedKeys) :
    ∀ (ms : Members) {d : NodeForm} {fields : List (String × Json)}, ms.Among names →
      Reading.decodeJsonMembers d.fields ms = .ok fields →
      decodeMembers d ms = { d with fields }.finish
  | .close, _, _, _, h => by
    cases h
    rfl
  | .broken, _, _, _, h | .member none _ _, _, _, _, h => nomatch h
  | .member (some key) value tail, d, fields, hamong, h => by
    obtain ⟨j, hj, htail⟩ := ok_of_bind h
    rw [decodeMembers_unshared (hfree key hamong.1) hj]
    exact decodeMembers_untyped hfree tail hamong.2 htail

/-- The stanza of a node may stand anywhere among its members. -/
theorem decodeMembers_with {names : List String} (hfree : ∀ k ∈ names, k ∉ sharedKeys)
    {stanza : String} {ms ns : Members} (hwith : ms.With "stanza" (.string stanza) ns)
    {d : NodeForm} {fields : List (String × Json)} (hnone : d.stanza = none)
    (hamong : ms.Among names) (h : Reading.decodeJsonMembers d.fields ms = .ok fields) :
    decodeMembers d ns = { d with stanza := some stanza, fields }.finish := by
  induction hwith generalizing d with
  | here ms =>
    have hheld : d.holds "stanza" = false := by simp [NodeForm.holds, hnone]
    rw [decodeMembers, hheld, if_neg Bool.false_ne_true, if_neg (by decide)]
    exact decodeMembers_untyped hfree ms hamong h
  | @later ms ns k v hwith ih =>
    cases k with
    | none => cases h
    | some key =>
      obtain ⟨j, hj, htail⟩ := ok_of_bind h
      rw [decodeMembers_unshared (hfree key hamong.1) hj]
      exact ih hnone hamong.2 htail

/-- **The settings of an artifact block are decoded as the members of a node**, and are written as
they arrive. -/
theorem decode_artifact {ms ns : Members} {name : String} {a : Artifact}
    (hwith : ms.With "stanza" (.string "artifact") ns)
    (h : Record.decode name Stanza.artifact.fields (.object ms) = .ok a) :
    ∃ n, decode (.object ns) = .ok n ∧ ∀ registry driver,
      n.script registry driver = Stanza.artifact.write () a.sorted := by
  have hfree : ∀ f ∈ Stanza.artifact.fields, f.name ∉ sharedKeys := by decide
  have hnames : ∀ k ∈ Stanza.artifact.fields.map Field.name, k ∉ sharedKeys :=
    List.forall_mem_map.2 hfree
  obtain ⟨hamong, fields, hfields, hback⟩ :=
    Record.decode_untyped Stanza.artifact.nodup_names hfree h
  let n : Node := { stanza := "artifact", fields }
  have hread : decode (.object ns) = .ok n := by
    rw [decode, decodeMembers_with hnames hwith rfl hamong hfields]
    rfl
  have hsettings : n.settings .artifact = .ok a.sorted := by
    rw [settings, hback, Artifact.received_eq_sorted]
    rfl
  have hlabel : n.label .artifact = .ok () := rfl
  exact ⟨n, hread, script_block rfl hlabel hsettings fun _ => rfl⟩

/-- The node that stands for a registered artifact. -/
def package (id : String) : Node := { stanza := "package", value := some (.text id) }

theorem script_package (registry : Registry) (driver id : String) :
    (package id).script registry driver = registry.package id := rfl

end Node

/-! ## Nodes that write the same -/

/-- Scripts that are the same still are with anything before, behind and around them. -/
theorem Script.same_closed (ι : Type) :
    Closed fun write : ι → Script => ∀ i j, write i = write j where
  fail _ _ _ := rfl
  prepend s _ h i j := congrArg (s ++ ·) (h i j)
  append s _ h i j := congrArg (· ++ s) (h i j)
  block keyword name _ h i j := congrArg (fun body => [Action.block keyword name body]) (h i j)

/-- **Nodes that write the same can be exchanged in any place of a description.** -/
theorem Node.Place.render_congr {registry : Registry} {n m : Node}
    (h : ∀ driver, n.script registry driver = m.script registry driver) (job : String)
    (p : Node.Place) :
    Description.render registry ⟨job, p.fill n⟩ = Description.render registry ⟨job, p.fill m⟩ := by
  have hsame := Description.closed registry job p (Script.same_closed Bool)
    (n := fun b => if b then n else m) fun driver i j => by
      cases i <;> cases j <;> simp [h driver]
  exact congrArg Script.document (hsame true false)

/-- The text of a JSON tree is rendered as the tree that its description denotes, if that is in
order. -/
theorem Description.rendered_of_check {registry : Registry} {j : Json} {d : Description}
    (hplain : j.Plain maxDepth) (hread : decode j.reading = .ok d)
    (hcheck : d.check registry = .ok ()) :
    rendered registry j.text =
      .ok (.ok (Item.printAll 0 true (Entry.allItems (d.tree registry)))) := by
  rw [rendered, parse, parse_text hplain, hread]
  show Except.ok (d.render registry) = _
  rw [render_of_check, hcheck]

namespace Definition

/-- **An artifact that is written in place is rendered as the package with its options sorted**, in
whatever place it stands.  So it is rendered as the package itself if the options of its definition
stand in the order of their keys. -/
theorem inline_sorted {id : String} {ms defined placed : Members} {d : Definition}
    (hdefined : ms.With "id" (.string id) defined)
    (hplaced : ms.With "stanza" (.string "artifact") placed)
    (h : decode (.object defined) = .ok d) :
    d.id = id ∧ ∃ n, Node.decode (.object placed) = .ok n ∧
      (∀ (registry : Registry) job (p : Node.Place),
        let known := registry.register id d.artifact.sorted
        Description.render known ⟨job, p.fill n⟩ =
          Description.render known ⟨job, p.fill (.package id)⟩) ∧
      ((∀ es ∈ d.artifact.options, Entries.Ascending es) →
        ∀ (registry : Registry) job (p : Node.Place),
          Description.render (registry.define d) ⟨job, p.fill n⟩ =
            Description.render (registry.define d) ⟨job, p.fill (.package id)⟩) := by
  obtain ⟨rfl, hsettings⟩ := settings_of_decode hdefined h "ArtifactOptions"
  obtain ⟨n, hn, hscript⟩ := Node.decode_artifact hplaced hsettings
  have hsame : ∀ (registry : Registry) job (p : Node.Place),
      let known := registry.register d.id d.artifact.sorted
      Description.render known ⟨job, p.fill n⟩ =
        Description.render known ⟨job, p.fill (.package d.id)⟩ := by
    intro registry job p known
    refine Node.Place.render_congr (fun driver => ?_) job p
    have hfound : known.get? d.id = some d.artifact.sorted :=
      Json.lookup_insert d.id d.artifact.sorted registry.artifacts
    rw [hscript, Node.script_package, Registry.package, hfound]
  refine ⟨rfl, n, hn, hsame, fun hascending registry => ?_⟩
  have hknown : registry.define d = registry.register d.id d.artifact.sorted := by
    rw [Registry.define, Artifact.sorted_of_ascending hascending]
  rw [hknown]
  exact hsame registry

/-- A source, and two options out of order. -/
def toolMembers : Members :=
  .member (some "source") (.string "s") (.member (some "options")
    (.object (.member (some "b") (.string "1") (.member (some "a") (.string "2") .close))) .close)

/-- The definition with these members. -/
def tool : Definition :=
  ⟨"tool", .cons (some "s") (.cons none (.cons none (.cons (some [("b", "1"), ("a", "2")]) .nil)))⟩

theorem inline_sorted_tool :
    let defined := Members.member (some "id") (.string "tool") toolMembers
    let placed := Members.member (some "stanza") (.string "artifact") toolMembers
    toolMembers.With "id" (.string "tool") defined ∧
      toolMembers.With "stanza" (.string "artifact") placed ∧
      decode (.object defined) = .ok tool ∧
      ∃ n, Node.decode (.object placed) = .ok n ∧
        ∀ (registry : Registry) job (p : Node.Place),
          let known := registry.register "tool" tool.artifact.sorted
          Description.render known ⟨job, p.fill n⟩ =
            Description.render known ⟨job, p.fill (.package "tool")⟩ := by
  intro defined placed
  have hdecode : decode (.object defined) = .ok tool := rfl
  obtain ⟨-, n, hn, hsame, -⟩ := inline_sorted (.here toolMembers) (.here toolMembers) hdecode
  exact ⟨.here toolMembers, .here toolMembers, hdecode, n, hn, hsame⟩

/-- The definition as JSON. -/
def toolJson : Json :=
  .object [("id", .string "tool"), ("source", .string "s"),
    ("options", .object [("b", .string "1"), ("a", .string "2")])]

/-- The artifact in place, with the same members. -/
def placedJson : Json :=
  .object [("stanza", .string "artifact"), ("source", .string "s"),
    ("options", .object [("b", .string "1"), ("a", .string "2")])]

/-- The artifact by its name. -/
def packageJson : Json := .object [("stanza", .string "package"), ("value", .string "tool")]

/-- A job with a node inside a task. -/
def taskJson (node : Json) : Json :=
  .object [("job", .string "j"), ("stanzas", .array [.object [("stanza", .string "group"),
    ("name", .string "g"), ("children", .array [.object [("stanza", .string "task"),
      ("name", .string "t"), ("children", .array [node])]])]])]

/-- The place of that node. -/
def taskPlace : Node.Place :=
  .inside [] "group" (some "g") none none
    (.inside [] "task" (some "t") none none (.beside [] []) [] []) [] []

/-- The artifact in place, as it is read. -/
def placedNode : Node where
  stanza := "artifact"
  fields := [("options", .object [("a", .string "2"), ("b", .string "1")]), ("source", .string "s")]

/-- The document of the job, with lines for the options of an artifact. -/
def taskDocument (options : String) : String :=
  "job \"j\" \x7b\n  group \"g\" \x7b\n    task \"t\" \x7b\n      driver = \"exec\"\n\n"
    ++ "      artifact \x7b\n        source = \"s\"\n\n        options \x7b\n" ++ options
    ++ "        \x7d\n      \x7d\n    \x7d\n  \x7d\n\x7d\n"

/-- Options keep their order by name, and are sorted in place. -/
theorem inline_options_reordered :
    JobFile.parse decode toolJson.text = .ok tool ∧
      Description.rendered (({} : Registry).define tool) (taskJson packageJson).text =
        .ok (.ok (taskDocument "          b = \"1\"\n          a = \"2\"\n")) ∧
      Description.rendered (({} : Registry).define tool) (taskJson placedJson).text =
        .ok (.ok (taskDocument "          a = \"2\"\n          b = \"1\"\n")) := by
  have htool : toolJson.Plain maxDepth := by cbv
  have hpackage : (taskJson packageJson).Plain maxDepth := by cbv
  have hplaced : (taskJson placedJson).Plain maxDepth := by cbv
  have hreadPackage : Description.decode (taskJson packageJson).reading =
    .ok ⟨"j", taskPlace.fill (.package "tool")⟩ := rfl
  have hreadPlaced : Description.decode (taskJson placedJson).reading =
    .ok ⟨"j", taskPlace.fill placedNode⟩ := rfl
  refine ⟨?_, ?_, ?_⟩
  · rw [parse_text htool]
    rfl
  · rw [Description.rendered_of_check hpackage hreadPackage rfl]
    rfl
  · rw [Description.rendered_of_check hplaced hreadPlaced rfl]
    rfl

end Definition

end JobFile
