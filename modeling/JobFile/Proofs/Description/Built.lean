import JobFile.Proofs.Description.Agreement
import JobFile.Proofs.Description.Received
import JobFile.Proofs.Description.Roundtrip

/-!
# Descriptions and calls

* `Part`               : a stanza with what stands in it;
* `Part.json`          : the node that describes it;
* `Part.script`        : what calls write for it;
* `Part.received`      : the part as it arrives when it is described;
* `Part.decode_json`   : a node that describes a part writes what calls write for the part as it
  arrives;
* `Description.render_parts` : so does a description;
* `Description.render_built` : a description is rendered as the job that calls build, if the settings
  of its stanzas arrive.

* `Stanza.lost_fields`, `Part.affinity_refused` : which settings get lost, and what follows for a
  block that requires one of them.

A node takes `name` and `value` for its own, so that settings of these names do not reach the block.
-/

namespace JobFile

/-- A stanza with what stands in it. -/
inductive Part where
  | leaf (s : Stanza) (isLeaf : s.isContainer = false) (label : s.naming.Label)
    (settings : s.Settings)
  | container (s : Stanza) (isContainer : s.isContainer = true) (label : s.naming.Label)
    (settings : s.Settings) (inside : List Part)
  /-- Any node, whatever it stands for. -/
  | other (j : Json) (n : Node) (read : Node.decode j.reading = .ok n)

namespace Part

mutual
/-- The node that describes a part. -/
def json : Part → Json
  | .leaf s _ label settings => s.json label settings []
  | .container s _ label settings inside => s.json label settings (allJson inside)
  | .other j _ _ => j
/-- The nodes that describe several parts. -/
def allJson : List Part → List Json
  | [] => []
  | p :: ps => p.json :: allJson ps
end

mutual
/-- What calls write for a part inside a task with the given driver. -/
def script (registry : Registry) (driver : String) : Part → Script
  | .leaf s _ label settings => s.write label settings
  | .container s _ label settings inside =>
    s.write label settings (scripts registry (s.driverWithin settings driver) inside)
  | .other _ n _ => n.script registry driver
/-- What calls write for several parts, one after the other. -/
def scripts (registry : Registry) (driver : String) : List Part → Script
  | [] => []
  | p :: ps => p.script registry driver ++ scripts registry driver ps
end

mutual
/-- A part as it arrives when it is described. -/
def received : Part → Part
  | .leaf s h label settings => .leaf s h label settings.received
  | .container s h label settings inside =>
    .container s h label settings.received (allReceived inside)
  | .other j n h => .other j n h
/-- Parts as they arrive when they are described. -/
def allReceived : List Part → List Part
  | [] => []
  | p :: ps => p.received :: allReceived ps
end

mutual
/-- Do all settings of a part arrive, and of those in it? -/
def Arrives : Part → Prop
  | .leaf _ _ _ settings => settings.Arrives
  | .container _ _ _ settings inside => settings.Arrives ∧ AllArrive inside
  | .other _ _ _ => True
/-- Do all settings of several parts arrive? -/
def AllArrive : List Part → Prop
  | [] => True
  | p :: ps => p.Arrives ∧ AllArrive ps
end

mutual
/-- Whether the settings of a part arrive can be decided. -/
def decideArrives : (p : Part) → Decidable p.Arrives
  | .leaf _ _ _ settings => inferInstanceAs (Decidable settings.Arrives)
  | .container _ _ _ settings inside =>
    have := decideAllArrive inside
    inferInstanceAs (Decidable (settings.Arrives ∧ AllArrive inside))
  | .other _ _ _ => isTrue trivial
/-- Whether the settings of several parts arrive can be decided. -/
def decideAllArrive : (ps : List Part) → Decidable (AllArrive ps)
  | [] => isTrue trivial
  | p :: ps =>
    have := decideArrives p
    have := decideAllArrive ps
    inferInstanceAs (Decidable (p.Arrives ∧ AllArrive ps))
end

instance (ps : List Part) : Decidable (AllArrive ps) := decideAllArrive ps

mutual
theorem received_of_arrives : ∀ p : Part, p.Arrives → p.received = p
  | .leaf s h label settings => by
    intro ha
    rw [received, Record.received_of_arrives ha]
  | .container s h label settings inside => by
    intro ha
    rw [received, Record.received_of_arrives ha.1, allReceived_of_allArrive inside ha.2]
  | .other _ _ _ => fun _ => rfl
theorem allReceived_of_allArrive : ∀ ps : List Part, AllArrive ps → allReceived ps = ps
  | [] => fun _ => rfl
  | p :: ps => by
    intro ha
    rw [allReceived, received_of_arrives p ha.1, allReceived_of_allArrive ps ha.2]
end

end Part

/-! ## Nodes -/

/-- A node with the parts of a block writes this block. -/
theorem Node.script_block {n : Node} {s : Stanza} {label : s.naming.Label}
    {settings : s.Settings} (hstanza : n.stanza = s.keyword) (hlabel : n.label s = .ok label)
    (hsettings : n.settings s = .ok settings) (hleaf : s.isContainer = false → n.children = [])
    (registry : Registry) (driver : String) :
    n.script registry driver =
      s.write label settings
        (Node.scripts registry (s.driverWithin settings driver) n.children) := by
  have hparts : n.blockParts s = .ok (label, settings) := by
    have hchildren : s.isContainer = false → n.withoutChildren = .ok () := by
      intro h
      rw [withoutChildren, hleaf h]
      rfl
    unfold blockParts
    rw [hlabel, hsettings]
    split
    · rfl
    · cases hs : s.isContainer with
      | true => rfl
      | false =>
        rw [hchildren hs]
        rfl
  have hword : Keyword.ofText? n.stanza = some (.block s) := by
    rw [hstanza]
    exact s.ofText?_keyword
  exact script_of_parts hword hparts registry driver

namespace Part

mutual
/-- **A node that describes a part writes what calls write for the part as it arrives.** -/
theorem decode_json : ∀ p : Part, ∃ n, Node.decode p.json.reading = .ok n ∧
    ∀ registry driver, n.script registry driver = p.received.script registry driver
  | .leaf s hleaf label settings => by
    have hnone : Node.decodeItems (Json.itemsReading []) = .ok [] := rfl
    obtain ⟨n, hread, hstanza, hchildren, hlabel, hsettings⟩ :=
      s.decode_json label settings hnone
    refine ⟨n, hread, fun registry driver => ?_⟩
    rw [Node.script_block hstanza hlabel hsettings (fun _ => hchildren), hchildren]
    rfl
  | .container s hcontainer label settings inside => by
    obtain ⟨ns, hinside, hscripts⟩ := decode_allJson inside
    obtain ⟨n, hread, hstanza, hchildren, hlabel, hsettings⟩ :=
      s.decode_json label settings hinside
    have hleaf : s.isContainer = false → n.children = [] := by
      intro h
      rw [hcontainer] at h
      cases h
    refine ⟨n, hread, fun registry driver => ?_⟩
    rw [Node.script_block hstanza hlabel hsettings hleaf, hchildren, hscripts]
    rfl
  | .other _ n h => ⟨n, h, fun _ _ => rfl⟩
theorem decode_allJson : ∀ ps : List Part, ∃ ns,
    Node.decodeItems (Json.itemsReading (allJson ps)) = .ok ns ∧
      ∀ registry driver, Node.scripts registry driver ns = scripts registry driver (allReceived ps)
  | [] => ⟨[], rfl, fun _ _ => rfl⟩
  | p :: ps => by
    obtain ⟨n, hn, hscript⟩ := decode_json p
    obtain ⟨ns, hns, hscripts⟩ := decode_allJson ps
    refine ⟨n :: ns, ?_, fun registry driver => ?_⟩
    · rw [allJson, Json.itemsReading, Node.decodeItems, hn, hns]
      rfl
    · rw [Node.scripts, allReceived, scripts, hscript, hscripts]
end

/-- The description of a job from its parts. -/
def jobJson (job : String) (parts : List Part) : Json :=
  .object [("job", .string job), ("stanzas", .array (allJson parts))]

/-- The document of the job that calls build from its parts. -/
def built (registry : Registry) (job : String) (parts : List Part) : Except Failure String :=
  (Job.write job (scripts registry standardDriver parts)).document

end Part

/-! ## Descriptions -/

namespace Description

variable (job : String) (parts : List Part)

/-- **A description is rendered as the job that calls build from its parts as they arrive.** -/
theorem render_parts :
    ∃ d, decode (Part.jobJson job parts).reading = .ok d ∧
      ∀ registry, d.render registry = Part.built registry job (Part.allReceived parts) := by
  obtain ⟨ns, hns, hscripts⟩ := Part.decode_allJson parts
  refine ⟨⟨job, ns⟩, ?_, fun registry => ?_⟩
  · have hlist : Node.decodeList (Json.array (Part.allJson parts)).reading = .ok ns := hns
    show decodeMembers none none (Json.membersReading
      [("job", .string job), ("stanzas", .array (Part.allJson parts))]) = _
    simp only [Json.membersReading, decodeMembers, hlist]
    rfl
  · rw [render, script, hscripts]
    rfl

/-- **A description is rendered as the job that calls build, if the settings of its stanzas
arrive**: the same document, or the same refusal.  If it is not nested too deeply, so is its text. -/
theorem render_built (harrive : Part.AllArrive parts) :
    (∃ d, decode (Part.jobJson job parts).reading = .ok d ∧
      ∀ registry, d.render registry = Part.built registry job parts) ∧
    ((Part.jobJson job parts).Plain maxDepth → ∀ registry,
      rendered registry (Part.jobJson job parts).text = .ok (Part.built registry job parts)) := by
  obtain ⟨d, hread, hrender⟩ := render_parts job parts
  rw [Part.allReceived_of_allArrive parts harrive] at hrender
  refine ⟨⟨d, hread, hrender⟩, fun hplain registry => ?_⟩
  rw [rendered, parse, parse_text hplain, hread, ← hrender]
  rfl

/-- A group of two, and in it a task with an environment and an artifact with options. -/
def fetching : List Part :=
  [.container .group rfl "g" (.cons (some (2 : Int64)) .nil)
    [.container .task rfl "t" Stanza.task.blank
      [.other (.object [("stanza", .string "env"), ("values", .object [("k", .bool true)])])
          { stanza := "env", values := some [("k", .boolean true)] } rfl,
        .leaf .artifact rfl () (.cons (some "s") (.cons none (.cons none
          (.cons (some [("a", "1"), ("b", "2")]) .nil))))]]]

theorem render_built_fetching :
    Part.AllArrive fetching ∧ (Part.jobJson "j" fetching).Plain maxDepth ∧
      (∃ d, decode (Part.jobJson "j" fetching).reading = .ok d ∧
        ∀ registry, d.render registry = Part.built registry "j" fetching) ∧
      ∀ registry, rendered registry (Part.jobJson "j" fetching).text =
        .ok (Part.built registry "j" fetching) := by
  have harrive : Part.AllArrive fetching := by decide
  have hplain : (Part.jobJson "j" fetching).Plain maxDepth := by cbv
  obtain ⟨hdecoded, htext⟩ := render_built "j" fetching harrive
  exact ⟨harrive, hplain, hdecoded, htext hplain⟩

end Description

/-! ## Settings that get lost -/

/-- The fields of the catalog that a node takes for its own. -/
theorem Stanza.lost_fields :
    (Stanza.all.flatMap fun s =>
      (s.fields.filter fun f => f.name ∈ Node.sharedKeys).map fun f => (s, f.name)) =
      [(.affinity, "value"), (.check, "name"), (.constraint, "value"), (.service, "name"),
        (.target, "value")] := by
  decide

namespace Part

/-- An affinity that is described is refused wherever it stands: its value, which is required, gets
lost. -/
theorem affinity_refused (parent driver : String) (registry : Registry)
    (o : Stanza.affinity.Settings) :
    ∃ why, (Script.written parent
      ((leaf .affinity rfl () o).received.script registry driver)).refusal = some why := by
  have hnone : (Script.written Stanza.affinity.keyword []).Agrees (.ok ()) (Entry.allItems []) :=
    rfl
  have hw := Stanza.affinity.write_agrees parent () o.received hnone nofun
  rw [o.received.checkChoices_of_free (by decide)] at hw
  have hrequired : ∃ why, o.received.checkRequired Stanza.affinity.keyword = .error why := by
    match o with
    | .cons none (.cons _ (.cons _ (.cons _ .nil))) => exact ⟨_, rfl⟩
    | .cons (some _) (.cons none (.cons _ (.cons _ .nil))) => exact ⟨_, rfl⟩
    | .cons (some _) (.cons (some _) (.cons _ (.cons _ .nil))) => exact ⟨_, rfl⟩
  obtain ⟨why, hwhy⟩ := hrequired
  rw [hwhy] at hw
  cases hplace : checkPlace Stanza.affinity.keyword Stanza.affinity.parents parent with
  | error misplaced =>
    rw [hplace] at hw
    exact ⟨misplaced, hw⟩
  | ok u =>
    rw [hplace] at hw
    exact ⟨why, hw⟩

/-- A task with a service that has a name. -/
def namedService : List Part :=
  [.container .group rfl "g" Stanza.group.blank
    [.container .task rfl "t" Stanza.task.blank
      [.container .service rfl ()
        (.cons none (.cons none (.cons (some "web") (.cons none (.cons none .nil))))) []]]]

/-- The name of a service that is described is not written. -/
theorem service_name_lost :
    Description.rendered {} (jobJson "j" namedService).text = .ok (.ok
      ("job \"j\" \x7b\n  group \"g\" \x7b\n    task \"t\" \x7b\n      driver = \"exec\"\n\n"
        ++ "      service \x7b\n      \x7d\n    \x7d\n  \x7d\n\x7d\n")) ∧
    built {} "j" namedService = .ok
      ("job \"j\" \x7b\n  group \"g\" \x7b\n    task \"t\" \x7b\n      driver = \"exec\"\n\n"
        ++ "      service \x7b\n        name = \"web\"\n      \x7d\n    \x7d\n  \x7d\n\x7d\n") := by
  have hplain : (jobJson "j" namedService).Plain maxDepth := by cbv
  obtain ⟨d, hread, hrender⟩ := Description.render_parts "j" namedService
  refine ⟨?_, by cbv⟩
  rw [Description.rendered, Description.parse, parse_text hplain, hread]
  show Except.ok (d.render {}) = _
  rw [hrender]
  cbv

end Part

end JobFile
