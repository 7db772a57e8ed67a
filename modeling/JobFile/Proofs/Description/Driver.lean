import JobFile.Proofs.Description.Unread
import JobFile.Proofs.Reading.Numeral
import JobFile.Proofs.Reading.ReadBack

/-!
# Settings follow the driver of their task

* `Node.announced`         : the driver that a task names, or the one for tasks that name none;
* `Node.driverWithin_eq_announced` : this is the driver that the task hands down;
* `Node.found_of_check`    : every node inside an accepted one is accepted, and what it denotes
  stands inside what the whole denotes;
* `Node.task_of_check`     : an accepted task is written alike inside whatever task;
* `Config.Holds`           : what the block of settings holds under a driver;
* `Node.taskBlock`         : the block of a task with a block of settings in it;
* `Description.settings_follow_driver` : settings are held as the driver on the first line of their
  task wants them.

The driver is handed down from node to node, and every task puts its own in its place.  Since no
task stands inside another one, no settings are written under a driver that their task has not
announced.
-/

namespace JobFile

/-! ## The driver of a task -/

section

variable {f : Field} {fs : List Field} {known : List String} {slot : f.Slot} {r : Record fs}
  {ms : List (String × Json)}

/-- What has been filled in stays. -/
theorem Form.slot_of_filled {filled : f.Slot} {rest : Form fs}
    (h : (Form.cons (some filled) rest).fillAll known (Json.membersReading ms) =
      .ok (.cons slot r)) : slot = filled := by
  induction ms generalizing rest with
  | nil =>
    obtain ⟨r', -, hr⟩ := ok_of_map (x := rest.finish) h
    cases hr
    rfl
  | cons m ms ih =>
    obtain ⟨G, hG, hrest⟩ := ok_of_bind h
    by_cases hkey : f.name = m.1
    · rw [Form.fill, if_pos hkey] at hG
      cases hG
    · rw [Form.fill_of_ne hkey] at hG
      obtain ⟨rest', -, rfl⟩ := ok_of_map hG
      exact ih hrest

/-- The first field of a record is filled from the member of its name. -/
theorem Form.slot_of_fillAll {rest : Form fs}
    (h : (Form.cons none rest).fillAll known (Json.membersReading ms) = .ok (.cons slot r)) :
    match ms.lookup f.name with
    | some j => f.decode j.reading = .ok slot
    | none => Slot.unfilled? f.mandatory = some slot := by
  induction ms generalizing rest with
  | nil =>
    rw [Json.membersReading, Form.fillAll, Form.finish] at h
    split at h
    · rename_i unset hunset
      obtain ⟨r', -, hr⟩ := ok_of_map h
      cases hr
      exact hunset
    · cases h
  | cons m ms ih =>
    obtain ⟨k, j⟩ := m
    obtain ⟨G, hG, hrest⟩ := ok_of_bind h
    by_cases hkey : f.name = k
    · rw [Form.fill, if_pos hkey] at hG
      obtain ⟨filled, hfilled, rfl⟩ := ok_of_map hG
      rw [hkey, List.lookup_cons_self, Form.slot_of_filled hrest]
      exact hfilled
    · rw [Form.fill_of_ne hkey] at hG
      obtain ⟨rest', -, rfl⟩ := ok_of_map hG
      rw [List.lookup_cons, beq_false_of_ne hkey]
      exact ih hrest

end

namespace Node

/-- The driver that a task names among its further members.  One that names none, or null, is for
the standard driver. -/
def announced (n : Node) : String :=
  match n.fields.lookup "driver" with
  | some (.string driver) => driver
  | _ => standardDriver

/-- What is handed down by a task is the driver that it announces, whatever has been handed down to
the task. -/
theorem driverWithin_eq_announced {n : Node} {settings : Stanza.task.Settings}
    (h : n.settings .task = .ok settings) (inherited : String) :
    Stanza.task.driverWithin settings inherited = n.announced := by
  match settings with
  | .cons slot rest =>
    have hslot := Form.slot_of_fillAll (ok_of_mapError h)
    show slot.getD standardDriver = n.announced
    unfold announced
    cases hlookup : n.fields.lookup "driver" with
    | none =>
      simp only [hlookup] at hslot
      cases (hslot : some none = some slot)
      rfl
    | some j =>
      simp only [hlookup] at hslot
      have hread : decodeOptional Reading.decodeText j.reading = .ok slot := hslot
      cases j with
      | null | string =>
        cases hread
        rfl
      | bool | number | array | object => cases hread

/-! ## Accepted nodes -/

variable {registry : Registry} {parent driver : String}

/-- What is known of a block that is accepted. -/
theorem block_of_check {n : Node} {s : Stanza} (hword : Keyword.ofText? n.stanza = some (.block s))
    (h : n.check registry parent driver = .ok ()) :
    ∃ label settings, n.blockParts s = .ok (label, settings) ∧
      checkPlace s.keyword s.parents parent = .ok () ∧
      checkAll registry s.keyword (s.driverWithin settings driver) n.children = .ok () := by
  obtain ⟨stanza, name, value, values, children, fields⟩ := n
  unfold check at h
  simp only [hword] at h
  obtain ⟨settings, hsettings, h⟩ := ok_of_bind h
  obtain ⟨_, hplace, h⟩ := ok_of_bind h
  obtain ⟨_, -, h⟩ := ok_of_bind h
  obtain ⟨_, -, hchildren⟩ := ok_of_bind h
  rw [checkedSettings_eq] at hsettings
  obtain ⟨parts, hparts, rfl⟩ := ok_of_map hsettings
  exact ⟨parts.1, parts.2, hparts, hplace, hchildren⟩

/-- What a block denotes that has something inside. -/
theorem tree_of_parts {n : Node} {s : Stanza} (hword : Keyword.ofText? n.stanza = some (.block s))
    {label : s.naming.Label} {settings : s.Settings}
    (hparts : n.blockParts s = .ok (label, settings)) (hchildren : s.isContainer = true) :
    n.tree registry driver = [.block s.keyword (s.naming.label? label)
      ((s.arrange settings.entries).flatten
        ++ trees registry (s.driverWithin settings driver) n.children)] := by
  obtain ⟨stanza, name, value, values, children, fields⟩ := n
  unfold tree
  simp only [hword, hparts, Stanza.entry, Stanza.isShort_of_isContainer hchildren, Bool.false_and]
  rfl

theorem checkAll_append (ns ms : List Node) :
    checkAll registry parent driver (ns ++ ms) =
      checkAll registry parent driver ns >>= fun _ => checkAll registry parent driver ms := by
  induction ns with
  | nil => rfl
  | cons n ns ih => rw [List.cons_append, checkAll, checkAll, ih, bind_assoc]

theorem trees_append (ns ms : List Node) :
    trees registry driver (ns ++ ms) = trees registry driver ns ++ trees registry driver ms := by
  induction ns with
  | nil => rfl
  | cons n ns ih => rw [List.cons_append, trees, trees, ih, List.append_assoc]

/-- A node that is accepted somewhere, and what it denotes stands among the given items. -/
def Found (registry : Registry) (items : List Item) (n : Node) : Prop :=
  ∃ parent driver, n.check registry parent driver = .ok () ∧
    ∀ i ∈ Entry.allItems (n.tree registry driver), Item.Inside i items

mutual
/-- **Every node inside an accepted one is accepted where it stands**, and what it denotes stands
inside what the whole denotes. -/
theorem found_of_check : ∀ {parent driver : String} (n : Node),
    n.check registry parent driver = .ok () →
    ∀ m ∈ n.nodes, m.Found registry (Entry.allItems (n.tree registry driver))
  | parent, driver, ⟨stanza, name, value, values, children, fields⟩, h => by
    intro m hm
    rcases List.mem_cons.1 hm with rfl | hm
    · exact ⟨parent, driver, h, fun i hi => .among hi⟩
    cases hword : Keyword.ofText? stanza with
    | none =>
      simp only [check, hword] at h
      cases h
    | some k =>
      cases k with
      | job =>
        simp only [check, hword] at h
        obtain ⟨_, -, h⟩ := ok_of_bind h
        obtain ⟨_, -, h⟩ := ok_of_bind h
        obtain ⟨parent', driver', hcheck, hinside⟩ := found_of_checkAll children h m hm
        refine ⟨parent', driver', hcheck, fun i hi => ?_⟩
        have htree : tree registry driver ⟨stanza, name, value, values, children, fields⟩ =
            [.block "job" name (trees registry driver children)] := by
          simp only [tree, hword]
        rw [htree]
        exact .block List.mem_cons_self (hinside i hi)
      | block s =>
        obtain ⟨label, settings, hparts, -, hchildren⟩ := block_of_check hword h
        obtain ⟨parent', driver', hcheck, hinside⟩ := found_of_checkAll children hchildren m hm
        have hcontainer : s.isContainer = true := by
          cases hs : s.isContainer with
          | true => rfl
          | false =>
            cases children_of_blockParts hparts hs
            cases hm
        refine ⟨parent', driver', hcheck, fun i hi => ?_⟩
        rw [tree_of_parts hword hparts hcontainer]
        refine .block List.mem_cons_self ((hinside i hi).mono ?_)
        rw [Entry.allItems_append]
        exact List.subset_append_right _ _
      | scalar | textMap | config | header | package | credentials =>
        simp only [check, hword] at h
        obtain ⟨-, hchildren⟩ := bare_of_checkPlain registry (by simp) (by simp) h
        cases hchildren
        cases hm
theorem found_of_checkAll : ∀ {parent driver : String} (ns : List Node),
    checkAll registry parent driver ns = .ok () →
    ∀ m ∈ allNodes ns, m.Found registry (Entry.allItems (trees registry driver ns))
  | _, _, [], _ => nofun
  | parent, driver, n :: ns, h => by
    obtain ⟨_, hn, hns⟩ := ok_of_bind h
    intro m hm
    rw [trees, Entry.allItems_append]
    rcases List.mem_append.1 hm with hm | hm
    · obtain ⟨parent', driver', hcheck, hinside⟩ := found_of_check n hn m hm
      exact ⟨parent', driver', hcheck,
        fun i hi => (hinside i hi).mono (List.subset_append_left _ _)⟩
    · obtain ⟨parent', driver', hcheck, hinside⟩ := found_of_checkAll ns hns m hm
      exact ⟨parent', driver', hcheck,
        fun i hi => (hinside i hi).mono (List.subset_append_right _ _)⟩
end

/-! ## Tasks -/

/-- A task carries its name. -/
theorem name_of_blockParts {t : Node} {name : String} {settings : Stanza.task.Settings}
    (h : t.blockParts .task = .ok (name, settings)) : t.name = some name := by
  rw [blockParts, if_pos rfl] at h
  obtain ⟨_, -, h⟩ := ok_of_bind h
  obtain ⟨label, hlabel, h⟩ := ok_of_bind h
  cases h
  unfold label at hlabel
  cases hname : t.name with
  | none =>
    rw [hname] at hlabel
    cases hlabel
  | some given =>
    rw [hname] at hlabel
    cases hlabel
    rfl

/-- **An accepted task is written alike inside whatever task**, with the driver that it announces on
its first line, and what stands in it is written under this driver. -/
theorem task_of_check {t : Node} (htask : t.stanza = Stanza.task.keyword)
    (h : t.check registry parent driver = .ok ()) :
    ∃ name settings, t.name = some name ∧
      checkAll registry Stanza.task.keyword t.announced t.children = .ok () ∧
      ∀ inherited, t.check registry "group" inherited = .ok () ∧
        t.tree registry inherited = [.block Stanza.task.keyword (some name)
          (.text "driver" t.announced :: (settings ++ trees registry t.announced t.children))] := by
  have hword : Keyword.ofText? t.stanza = some (.block .task) := by
    rw [htask]
    exact Stanza.ofText?_keyword .task
  obtain ⟨name, settings, hparts, hplace, hchildren⟩ := block_of_check hword h
  have hdriver := driverWithin_eq_announced (settings_of_blockParts hparts)
  rw [hdriver] at hchildren
  have hcheck : ∀ inherited, t.check registry parent inherited = .ok () := by
    have hsettings : t.checkedSettings .task = .ok settings := by
      rw [checkedSettings_eq, hparts]
      rfl
    -- The check sees the driver from outside only in what the task hands down.
    intro inherited
    obtain ⟨stanza, name, value, values, children, fields⟩ := t
    rw [← h]
    simp only [check, hword, hsettings, bind, Except.bind, hdriver]
  have hparent : parent = "group" := by
    unfold checkPlace at hplace
    split at hplace
    · exact List.mem_singleton.1 ‹_›
    · cases hplace
  match settings with
  | .cons slot rest =>
    refine ⟨name, rest.entries.flatten, name_of_blockParts hparts, hchildren, fun inherited =>
      ⟨hparent ▸ hcheck inherited, ?_⟩⟩
    rw [tree_of_parts hword hparts rfl, hdriver]
    have hslot : slot.getD standardDriver = t.announced := hdriver inherited
    rw [← hslot]
    cases slot <;> rfl

end Node

/-! ## Settings -/

/-- What the block of the given settings holds under a driver.  The standard driver knows a command,
which is written as a text even if it looks like an integer, and arguments, which come second.  Any
other driver takes what has a shape, in the order given. -/
inductive Config.Holds (driver : String) (values : Entries Value) : List Item → Prop
  | bare {command : String} (hdriver : driver = standardDriver)
    (hkeys : ∀ key ∈ values.keys, key ∈ ["command", "args"])
    (hcommand : values.get? "command" = some (.text command))
    (hargs : values.get? "args" = none) :
    Config.Holds driver values [.line (assigned "command" (Text.quote command))]
  | withArgs {command : String} {v : Value} {args : List String}
    (hdriver : driver = standardDriver)
    (hkeys : ∀ key ∈ values.keys, key ∈ ["command", "args"])
    (hcommand : values.get? "command" = some (.text command))
    (hargs : values.get? "args" = some v) (hflat : v.flatten "args" = .ok args) :
    Config.Holds driver values [.line (assigned "command" (Text.quote command)),
      .line (assigned "args" (Text.quoteAll args))]
  | shaped (hdriver : driver ≠ standardDriver)
    (hshape : ∀ e ∈ values, (Script.written keyword (e.2.assign e.1)).refusal = none) :
    Config.Holds driver values
      (values.flatMap fun e => (Script.written keyword (e.2.assign e.1)).items)

namespace Config

theorem allItems_allEntries {values : Entries Value} (h : Value.checkShapes values = .ok ()) :
    (∀ e ∈ values, (Script.written keyword (e.2.assign e.1)).refusal = none) ∧
      Entry.allItems (Value.allEntries values) =
        values.flatMap fun e => (Script.written keyword (e.2.assign e.1)).items := by
  induction values with
  | nil => exact ⟨nofun, rfl⟩
  | cons e values ih =>
    obtain ⟨key, v⟩ := e
    obtain ⟨_, hv, hvalues⟩ := ok_of_bind h
    obtain ⟨hnone, hitems⟩ := ih hvalues
    have hwritten := Value.assign_agrees keyword key v
    rw [hv] at hwritten
    have hentry : Script.written keyword (v.assign key) = ⟨Entry.allItems (v.entries key), none⟩ :=
      hwritten
    refine ⟨List.forall_mem_cons.2 ⟨by rw [hentry], hnone⟩, ?_⟩
    rw [Value.allEntries, Entry.allItems_append, hitems, List.flatMap_cons, hentry]

/-- Accepted settings are held as their driver wants them. -/
theorem holds_of_check {driver : String} {values : Entries Value}
    (h : check driver values = .ok ()) :
    Holds driver values (Entry.allItems (entries driver values)) := by
  by_cases hdriver : driver = standardDriver
  · rw [check, if_pos hdriver] at h
    rw [entries, if_pos hdriver]
    split at h
    · cases h
    · rename_i hunknown
      have hkeys : ∀ key ∈ values.keys, key ∈ ["command", "args"] := by
        simpa [List.find?_eq_none, defaultKeys, or_iff_not_imp_left] using hunknown
      obtain ⟨_, hcommand, hargs⟩ := ok_of_bind h
      cases hc : values.get? "command" with
      | none =>
        rw [hc] at hcommand
        cases hcommand
      | some w =>
        rw [hc] at hcommand
        cases w with
        | text command =>
          cases ha : values.get? "args" with
          | none => exact .bare hdriver hkeys hc ha
          | some v =>
            rw [ha, checkArgs] at hargs
            have hflat : v.flatten "args" = .ok v.leaves := by
              rw [v.flatten_eq "args", hargs]
              rfl
            exact .withArgs hdriver hkeys hc ha hflat
        | boolean | integer | double | list | map => cases hcommand
  · rw [check, if_neg hdriver] at h
    obtain ⟨hshape, hitems⟩ := allItems_allEntries h
    rw [entries, if_neg hdriver, hitems]
    exact .shaped hdriver hshape

end Config

/-- The block of an accepted node with settings. -/
theorem Node.config_of_check {registry : Registry} {parent driver : String} {c : Node}
    (hconfig : c.stanza = Config.keyword) (h : c.check registry parent driver = .ok ()) :
    ∃ body, Entry.allItems (c.tree registry driver) = [.block Config.keyword none body] ∧
      Config.Holds driver (c.values.getD []) body := by
  have hword : Keyword.ofText? c.stanza = some .config := by
    rw [hconfig]
    decide
  obtain ⟨stanza, name, value, values, children, fields⟩ := c
  simp only [check, hword] at h
  obtain ⟨_, hchildren, h⟩ := ok_of_bind h
  obtain ⟨_, hfields, h⟩ := ok_of_bind h
  obtain ⟨_, -, hsettings⟩ := ok_of_bind h
  refine ⟨_, ?_, Config.holds_of_check hsettings⟩
  simp only [tree, hword, plainTree, Node.entries, hchildren, hfields]
  rfl

/-! ## Tasks with settings -/

namespace Node

variable {registry : Registry} {parent driver : String}

/-- What accepted nodes write is what they denote. -/
theorem scripts_written {ns : List Node} (h : checkAll registry parent driver ns = .ok ()) :
    Script.written parent (scripts registry driver ns) =
      ⟨Entry.allItems (trees registry driver ns), none⟩ := by
  have hagrees := scripts_agree registry parent driver ns
  rw [h] at hagrees
  exact hagrees

/-- What is written for stanzas that stand in a task. -/
def inside (registry : Registry) (t : Node) (ns : List Node) : List Item :=
  (Script.written Stanza.task.keyword (scripts registry t.announced ns)).items

/-- The block of a task: the line of its driver, its other settings, and a block of settings for the
driver, with what is written for the stanzas before it and after it. -/
def taskBlock (registry : Registry) (t : Node) (name : String) (settings : List Item)
    (before : List Node) (config : List Item) (after : List Node) : Item :=
  .block Stanza.task.keyword (some name)
    (.line (assigned "driver" (Text.quote t.announced)) ::
      (settings ++ (t.inside registry before ++
        .block Config.keyword none config :: t.inside registry after)))

/-- An accepted task with a block of settings is written as its block, whatever the driver outside
of it. -/
theorem taskBlock_of_check {t c : Node} {before after : List Node}
    (htask : t.stanza = Stanza.task.keyword) (hchildren : t.children = before ++ c :: after)
    (hconfig : c.stanza = Config.keyword) (h : t.check registry parent driver = .ok ()) :
    ∃ name settings config, t.name = some name ∧
      Config.Holds t.announced (c.values.getD []) config ∧
      ∀ inherited,
        Entry.allItems (t.tree registry inherited) =
          [t.taskBlock registry name settings before config after] ∧
        Script.written "group" (t.script registry inherited) =
          ⟨[t.taskBlock registry name settings before config after], none⟩ := by
  obtain ⟨name, settings, hname, hinside, htree⟩ := task_of_check htask h
  rw [hchildren, checkAll_append] at hinside
  obtain ⟨_, hbefore, hinside⟩ := ok_of_bind hinside
  obtain ⟨_, hc, hafter⟩ := ok_of_bind hinside
  obtain ⟨config, hitems, hholds⟩ := config_of_check hconfig hc
  refine ⟨name, Entry.allItems settings, config, hname, hholds, fun inherited => ?_⟩
  obtain ⟨hcheck, hdenoted⟩ := htree inherited
  have hblock : Entry.allItems (t.tree registry inherited) =
      [t.taskBlock registry name (Entry.allItems settings) before config after] := by
    rw [hdenoted, hchildren, trees_append, trees, Entry.allItems_singleton, Entry.items,
      Entry.allItems, Entry.allItems_append, Entry.allItems_append, Entry.allItems_append, hitems,
      taskBlock, inside, inside, scripts_written hbefore, scripts_written hafter]
    rfl
  refine ⟨hblock, ?_⟩
  have hagrees := script_agrees registry "group" inherited t
  rw [hcheck, hblock] at hagrees
  exact hagrees

end Node

namespace Description

/-- **The settings of a task follow the driver that the task announces**, wherever the task stands.
The first line of its block names the driver, as a literal, and a block of settings in it holds what
this driver wants.  The block of the task is the same whatever the driver outside of it, and stands
in the document. -/
theorem settings_follow_driver {registry : Registry} {d : Description} {document : String}
    (h : d.render registry = .ok document) {t c : Node} {before after : List Node}
    (ht : t ∈ d.nodes) (htask : t.stanza = Stanza.task.keyword)
    (hchildren : t.children = before ++ c :: after) (hconfig : c.stanza = Config.keyword) :
    (∀ s, Text.IsLiteral Reading.decodeText s (Text.quote s) ∧
      Text.denotesInteger (Text.quote s) = false) ∧
    (∀ items, Text.IsLiteral Reading.decodeTexts items (Text.quoteAll items)) ∧
    ∃ name settings config, t.name = some name ∧
      Config.Holds t.announced (c.values.getD []) config ∧
      (∀ inherited, Script.written "group" (t.script registry inherited) =
        ⟨[t.taskBlock registry name settings before config after], none⟩) ∧
      ∃ depth first lead trail, document = lead ++
        (t.taskBlock registry name settings before config after).print depth first ++ trail := by
  refine ⟨fun s => ⟨Text.isLiteral_quote s, Text.denotesInteger_quote s⟩, Text.isLiteral_quoteAll,
    ?_⟩
  obtain ⟨parent, driver, hcheck, hfound⟩ :=
    Node.found_of_checkAll d.stanzas (check_of_render h) t ht
  obtain ⟨name, settings, config, hname, hholds, hblock⟩ :=
    Node.taskBlock_of_check htask hchildren hconfig hcheck
  refine ⟨name, settings, config, hname, hholds, fun inherited => (hblock inherited).2, ?_⟩
  have hinside := hfound _ (by rw [(hblock driver).1]; exact List.mem_cons_self)
  rw [document_eq h, tree, Entry.allItems_singleton, Entry.items]
  exact (Item.Inside.block List.mem_cons_self hinside).printed 0 true

/-- Settings with a command that looks like an integer, behind the arguments. -/
def runnerConfig : Node where
  stanza := "config"
  values := some [("args", .list [.integer 1]), ("command", .text "8080")]

/-- A task for the standard driver with these settings. -/
def runner : Node where
  stanza := "task"
  name := some "run"
  children := [runnerConfig, { stanza := "logs" }]

/-- The same behind a task for another driver. -/
def mixedDrivers : Description where
  job := "j"
  stanzas :=
    [{ stanza := "group", name := some "g", children :=
      [{ stanza := "task", name := some "web", fields := [("driver", .string "docker")],
         children := [{ stanza := "config", values := some [("port", .text "8080")] }] },
        runner] }]

theorem settings_follow_driver_mixed :
    ∃ document, mixedDrivers.render {} = .ok document ∧ runner ∈ mixedDrivers.nodes ∧
      ∃ settings depth first lead trail, document = lead ++
        (runner.taskBlock {} "run" settings []
          [.line "command = \"8080\"", .line "args = [\"1\"]"]
          [{ stanza := "logs" }]).print depth first ++ trail := by
  have hrender : mixedDrivers.render {} =
      .ok (Item.printAll 0 true (Entry.allItems (mixedDrivers.tree {}))) := by
    rw [render_of_check]
    rfl
  have hmem : runner ∈ mixedDrivers.nodes := by
    simp [nodes, mixedDrivers, Node.allNodes, Node.nodes, runner]
  have hchildren : runner.children = [] ++ runnerConfig :: [{ stanza := "logs" }] := rfl
  obtain ⟨-, -, name, settings, config, hname, hholds, -, hprinted⟩ :=
    settings_follow_driver hrender hmem rfl hchildren rfl
  cases hname
  have hconfig : config = [.line "command = \"8080\"", .line "args = [\"1\"]"] := by
    have hcommand : assigned "command" (Text.quote "8080") = "command = \"8080\"" := by decide
    have hargs : assigned "args" (Text.quoteAll ["1"]) = "args = [\"1\"]" := by decide
    rw [← hcommand, ← hargs]
    cases hholds with
    | bare _ _ _ hnone => cases hnone
    | withArgs _ _ hgiven hsome hflat =>
      cases hgiven
      cases hsome
      cases hflat
      rfl
    | shaped hdriver => exact absurd rfl hdriver
  rw [hconfig] at hprinted
  exact ⟨_, hrender, hmem, settings, hprinted⟩

end Description

end JobFile
