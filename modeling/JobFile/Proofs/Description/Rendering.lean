import JobFile.Proofs.Description.Agreement

/-!
# Rendering agrees with checking

* `Node.scalarSetting_of_value`, `Node.textsValue_eq`, `Node.scalarTexts_eq` : what a node carries,
  once it has been checked;
* `Node.checkedSettings_eq`  : the parts of a block are found when its node is in order;
* `Node.script_agrees`       : a node writes the entries that it denotes if it is accepted;
* `Description.render_eq_check` : a description is rendered exactly when its check passes, and is
  refused for the same reason.

The scripts of a node are followed along their recursion.  The keyword of the block and the driver
are all that a node has to know of its surroundings, since what a script writes depends on nothing
else.
-/

namespace JobFile

namespace Script

/-- A script that is only found once something else is in order. -/
theorem ofExcept_bind_agrees {α : Type} {parent : String} {x : Except Refusal α}
    {next : α → Except Refusal Script} {c : α → Except Refusal Unit} {items : List Item}
    (h : ∀ a, x = .ok a → (written parent (ofExcept (next a))).Agrees (c a) items) :
    (written parent (ofExcept (x >>= next))).Agrees (x >>= c) items := by
  refine ofExcept_agrees ?_ ?_
  · intro why hx
    rw [hx]
    rfl
  · intro a hx
    rw [hx]
    exact h a hx

end Script

/-- Only a block that is always named needs a name. -/
theorem Naming.ofName?_isNone (k : Naming) (name : Option String) :
    (k.ofName? name).isNone = (decide (k = .named) && name.isNone) := by
  cases k <;> cases name <;> rfl

namespace Node

variable {α : Type}

/-! ## What a node carries -/

theorem scalarValue_bind (n : Node) (next : Value → Except Refusal α) :
    n.scalarValue >>= next = (do
      n.withoutChildren
      n.withoutFields
      let v ← n.givenValue
      next v) := by
  unfold scalarValue givenValue
  cases n.withoutChildren with
  | error why => rfl
  | ok u =>
    cases n.withoutFields with
    | error why => rfl
    | ok u => cases n.value <;> rfl

theorem entries_bind (n : Node) (next : Entries Value → Except Refusal α) :
    n.entries >>= next = (do
      n.withoutChildren
      n.withoutFields
      next (n.values.getD [])) := by
  unfold entries
  cases n.withoutChildren with
  | error why => rfl
  | ok u => cases n.withoutFields <;> rfl

theorem textValue_eq (n : Node) : n.textValue = n.scalarValue >>= n.givenText := by
  unfold textValue
  cases n.scalarValue with
  | error why => rfl
  | ok v => cases v <;> rfl

theorem textsValue_eq (n : Node) :
    n.textsValue = n.scalarValue >>= fun v => (v.checkItem n.stanza).map fun _ => v.leaves := by
  unfold textsValue
  cases n.scalarValue with
  | error why => rfl
  | ok v => exact v.flatten_eq n.stanza

theorem scalarTexts_eq : ∀ es : Entries Value,
    scalarTexts es =
      (Value.checkScalars es).map fun _ => es.map fun (k, v) => (k, v.leaves.headD "")
  | [] => rfl
  | (k, v) :: es => by
    rw [scalarTexts, Value.checkScalars, scalarTexts_eq es, v.scalar_eq k]
    cases v.checkScalar k with
    | error why => rfl
    | ok u => cases Value.checkScalars es <;> rfl

theorem scalarSetting_of_error {n : Node} {why : Refusal} (h : n.scalarValue = .error why)
    (s : Scalar) : n.scalarSetting s = .error why := by
  cases s <;> simp only [scalarSetting, textValue, textsValue, h] <;> rfl

/-- A value of the right kind is a setting, and the setting is allowed if the value is. -/
theorem scalarSetting_of_value {n : Node} {v : Value} (h : n.scalarValue = .ok v) (s : Scalar) :
    match s.checkKind n.stanza v with
    | .ok () => ∃ a, n.scalarSetting s = .ok a ∧ s.field.checkChoice (some a) = s.checkChoice v
    | .error why => n.scalarSetting s = .error why := by
  cases s with
  | datacenters =>
    have hs : n.scalarSetting .datacenters =
        (v.checkItem n.stanza).map fun _ => v.leaves := by
      rw [scalarSetting, textsValue_eq, h]
      rfl
    have hk : Scalar.datacenters.checkKind n.stanza v = v.checkItem n.stanza := by
      cases v <;> rfl
    rw [hs, hk]
    cases v.checkItem n.stanza with
    | error why => rfl
    | ok u => exact ⟨v.leaves, rfl, rfl⟩
  | _ =>
    simp only [scalarSetting, textValue, h]
    cases v <;> first | exact ⟨_, rfl, rfl⟩ | rfl

/-! ## The parts of a block -/

theorem label_check (n : Node) (s : Stanza) :
    (n.label s).map (fun _ => ()) = n.checkName s := by
  unfold label checkName
  rw [← s.naming.ofName?_isNone n.name]
  cases s.naming.ofName? n.name <;> rfl

theorem checkedSettings_eq (n : Node) (s : Stanza) :
    n.checkedSettings s = (n.blockParts s).map Prod.snd := by
  unfold checkedSettings blockParts
  rw [← n.label_check s]
  split
  · cases n.settings s with
    | error why => rfl
    | ok settings => cases n.label s <;> rfl
  · cases n.label s with
    | error why => rfl
    | ok label =>
      cases s.isContainer with
      | true => cases n.settings s <;> rfl
      | false =>
        cases n.withoutChildren with
        | error why => rfl
        | ok u => cases n.settings s <;> rfl

/-- A block that holds no stanzas has none inside. -/
theorem children_of_blockParts {n : Node} {s : Stanza} {parts : s.naming.Label × s.Settings}
    (h : n.blockParts s = .ok parts) (hs : s.isContainer = false) : n.children = [] := by
  have htask : s ≠ .task := by
    intro ht
    rw [ht] at hs
    cases hs
  unfold blockParts at h
  rw [if_neg htask, hs] at h
  obtain ⟨label, -, hrest⟩ := ok_of_bind h
  obtain ⟨u, hchildren, -⟩ := ok_of_bind (x := n.withoutChildren) hrest
  unfold withoutChildren at hchildren
  split at hchildren
  · rename_i hempty
    exact List.isEmpty_iff.1 hempty
  · cases hchildren

/-! ## Nodes without stanzas inside -/

variable (registry : Registry) (parent driver : String)

theorem scalar_agrees (n : Node) (s : Scalar) :
    (Script.written parent (n.plainScript registry driver (.scalar s))).Agrees
      (n.checkPlain registry parent driver (.scalar s))
      (Entry.allItems (n.plainTree registry driver (.scalar s))) := by
  have hcheck : n.checkPlain registry parent driver (.scalar s) = _ :=
    (n.scalarValue_bind fun v => do
      s.checkKind n.stanza v
      checkPlace s.keyword Scalar.parents parent
      s.checkChoice v).symm
  rw [hcheck]
  cases hv : n.scalarValue with
  | error why =>
    rw [plainScript, scalarSetting_of_error hv]
    exact Script.fail_agrees why _
  | ok v =>
    have hset := scalarSetting_of_value hv s
    show Written.Agrees _ (s.checkKind n.stanza v >>= fun _ => _) _
    rw [plainScript, plainTree]
    cases hk : s.checkKind n.stanza v with
    | error why =>
      rw [hk] at hset
      rw [hset]
      exact Script.fail_agrees why _
    | ok u =>
      rw [hk] at hset
      obtain ⟨a, ha, hchoice⟩ := hset
      have hw := s.write_agrees parent a
      rw [hchoice] at hw
      rw [ha, entriesOf, Entry.allItems_singleton]
      exact hw

theorem textMap_agrees (n : Node) (m : TextMap) :
    (Script.written parent (n.plainScript registry driver (.textMap m))).Agrees
      (n.checkPlain registry parent driver (.textMap m))
      (Entry.allItems (n.plainTree registry driver (.textMap m))) := by
  have hcheck : n.checkPlain registry parent driver (.textMap m) = _ :=
    (n.entries_bind fun es => do
      Value.checkScalars es
      checkPlace m.keyword m.parents parent).symm
  rw [hcheck, plainScript, plainTree, textEntries]
  cases n.entries with
  | error why => exact Script.fail_agrees why _
  | ok es =>
    show Written.Agrees (Script.written parent (Script.ofExcept (scalarTexts es >>= _)))
      (Value.checkScalars es >>= fun _ => _) (Entry.allItems (entriesOf _ (scalarTexts es)))
    rw [scalarTexts_eq]
    cases Value.checkScalars es with
    | error why => exact Script.fail_agrees why _
    | ok u =>
      rw [Except.map, entriesOf, Entry.allItems_singleton]
      exact m.write_agrees parent _

theorem config_agrees (n : Node) :
    (Script.written parent (n.plainScript registry driver .config)).Agrees
      (n.checkPlain registry parent driver .config)
      (Entry.allItems (n.plainTree registry driver .config)) := by
  have hcheck : n.checkPlain registry parent driver .config = _ :=
    (n.entries_bind fun es => do
      checkPlace Config.keyword ["task"] parent
      Config.check driver es).symm
  rw [hcheck, plainScript, plainTree]
  refine Script.ofExcept_bind_agrees fun es hes => ?_
  rw [hes, entriesOf, Entry.allItems_singleton]
  exact Config.write_agrees parent driver es

/-- A node with a name and a list of texts. -/
theorem named_agrees (n : Node) {write : String → List String → Script}
    {entry : String × List String → Entry} {place : Except Refusal Unit}
    (h : ∀ name texts, (Script.written parent (write name texts)).Agrees place
      (entry (name, texts)).items) :
    (Script.written parent (Script.ofExcept do
      let name ← n.givenName
      pure (write name (← n.textsValue)))).Agrees
      (do
        let _ ← n.givenName
        n.withoutChildren
        n.withoutFields
        let v ← n.givenValue
        v.checkItem n.stanza
        place)
      (Entry.allItems (entriesOf entry do
        pure (← n.givenName, ← n.textsValue))) := by
  refine Script.ofExcept_bind_agrees fun name hname => ?_
  rw [← n.scalarValue_bind fun v => v.checkItem n.stanza >>= fun _ => place, hname, textsValue_eq]
  cases n.scalarValue with
  | error why => exact Script.fail_agrees why _
  | ok v =>
    show Written.Agrees (Script.written parent
        (Script.ofExcept (Except.map (fun _ => v.leaves) (v.checkItem n.stanza) >>= _)))
      (v.checkItem n.stanza >>= fun _ => place)
      (Entry.allItems (entriesOf entry
        (Except.map (fun _ => v.leaves) (v.checkItem n.stanza) >>= fun texts => pure (name, texts))))
    cases v.checkItem n.stanza with
    | error why => exact Script.fail_agrees why _
    | ok u =>
      have hw := h name v.leaves
      rw [← Entry.allItems_singleton] at hw
      exact hw

theorem package_agrees (n : Node) :
    (Script.written parent (n.plainScript registry driver .package)).Agrees
      (n.checkPlain registry parent driver .package)
      (Entry.allItems (n.plainTree registry driver .package)) := by
  have hcheck : n.checkPlain registry parent driver .package = (do
      let id ← n.textValue
      registry.checkPackage parent id) := by
    rw [textValue_eq, bind_assoc]
    exact (n.scalarValue_bind _).symm
  rw [hcheck, plainScript, plainTree]
  refine Script.ofExcept_bind_agrees fun id hid => ?_
  rw [hid]
  exact registry.package_agrees parent id

theorem plain_agrees (n : Node) (k : Keyword) (hjob : k ≠ .job) (hblock : ∀ s, k ≠ .block s) :
    (Script.written parent (n.plainScript registry driver k)).Agrees
      (n.checkPlain registry parent driver k)
      (Entry.allItems (n.plainTree registry driver k)) := by
  cases k with
  | scalar s => exact n.scalar_agrees registry parent driver s
  | job => exact absurd rfl hjob
  | block s => exact absurd rfl (hblock s)
  | textMap m => exact n.textMap_agrees registry parent driver m
  | config => exact n.config_agrees registry parent driver
  | header => exact n.named_agrees parent fun name values => Header.write_agrees parent name values
  | package => exact n.package_agrees registry parent driver
  | credentials c => exact n.named_agrees parent fun name paths => c.write_agrees parent name paths

/-! ## Nodes -/

theorem job_agrees (n : Node) {body : Script} {c : Except Refusal Unit} {inner : List Entry}
    (hbody : (Script.written "job" body).Agrees c (Entry.allItems inner)) :
    (Script.written parent (match n.givenName with
      | .ok name => Job.write name body
      | .error why => [.fail why])).Agrees
      (do
        let _ ← n.givenName
        checkPlace "job" [Context.root] parent
        c)
      (Entry.block "job" n.name inner).items := by
  unfold givenName
  cases n.name with
  | none => exact Script.fail_agrees _ _
  | some name => exact Script.within_agrees (Script.block_agrees hbody)

theorem block_agrees (n : Node) (s : Stanza) {body : s.Settings → Script}
    {c : s.Settings → Except Refusal Unit} {inner : s.Settings → List Entry}
    (hbody : ∀ settings, (Script.written s.keyword (body settings)).Agrees (c settings)
      (Entry.allItems (inner settings)))
    (hnone : ∀ settings, n.children = [] → c settings = .ok ()) :
    (Script.written parent (match n.blockParts s with
      | .ok (label, settings) => s.write label settings (body settings)
      | .error why => [.fail why])).Agrees
      (do
        let settings ← n.checkedSettings s
        checkPlace s.keyword s.parents parent
        settings.checkChoices
        settings.checkRequired s.keyword
        c settings)
      (Entry.allItems (match n.blockParts s with
        | .ok (label, settings) => [s.entry label settings (inner settings)]
        | .error _ => [])) := by
  rw [checkedSettings_eq]
  cases hparts : n.blockParts s with
  | error why => exact Script.fail_agrees why _
  | ok parts =>
    obtain ⟨label, settings⟩ := parts
    have hshort : s.isShort = true → c settings = .ok () := by
      intro h
      have hleaf : s.isContainer = false := by
        cases s <;> first | rfl | cases h
      exact hnone settings (children_of_blockParts hparts hleaf)
    rw [Entry.allItems_singleton]
    exact s.write_agrees parent label settings (hbody settings) hshort

mutual
/-- **What a node writes agrees with its check**, in a block of any keyword and inside a task with
any driver. -/
theorem script_agrees (registry : Registry) : ∀ (parent driver : String) (n : Node),
    (Script.written parent (n.script registry driver)).Agrees (n.check registry parent driver)
      (Entry.allItems (n.tree registry driver))
  | parent, driver, ⟨stanza, name, value, values, children, fields⟩ => by
    unfold script check tree
    dsimp only
    cases Keyword.ofText? stanza with
    | none => exact Script.fail_agrees _ _
    | some k =>
      cases k with
      | job =>
        rw [Entry.allItems_singleton]
        exact job_agrees parent ⟨stanza, name, value, values, children, fields⟩
          (scripts_agree registry "job" driver children)
      | block s =>
        refine block_agrees parent ⟨stanza, name, value, values, children, fields⟩ s ?_ ?_
        · intro settings
          exact scripts_agree registry s.keyword (s.driverWithin settings driver) children
        · intro settings hchildren
          cases hchildren
          rfl
      | _ => exact plain_agrees registry parent driver _ _ nofun nofun
theorem scripts_agree (registry : Registry) : ∀ (parent driver : String) (ns : List Node),
    (Script.written parent (scripts registry driver ns)).Agrees
      (checkAll registry parent driver ns) (Entry.allItems (trees registry driver ns))
  | _, _, [] => Written.agrees_nothing
  | parent, driver, n :: ns => by
    rw [trees, Entry.allItems_append]
    exact Script.append_agrees (script_agrees registry parent driver n)
      fun _ => scripts_agree registry parent driver ns
end

end Node

/-! ## Descriptions -/

/-- The document that consists of what has been written. -/
def Written.document (w : Written) : Except Failure String :=
  match w.refusal with
  | none => .ok (Item.printAll 0 true w.items)
  | some why => .error (.refused why)

namespace Description

variable (registry : Registry) (d : Description)

/-- A description writes its tree if it is accepted. -/
theorem script_agrees :
    (Script.written Context.root (d.script registry)).Agrees (d.check registry)
      (Entry.allItems (d.tree registry)) := by
  have hplace : checkPlace "job" [Context.root] Context.root = .ok () := rfl
  have hw : (Script.written Context.root (d.script registry)).Agrees
      (checkPlace "job" [Context.root] Context.root >>= fun _ => d.check registry)
      (Entry.block "job" (some d.job) (Node.trees registry standardDriver d.stanzas)).items :=
    Script.within_agrees (Script.block_agrees
      (Node.scripts_agree registry "job" standardDriver d.stanzas))
  rw [hplace] at hw
  rw [tree, Entry.allItems_singleton]
  exact hw

/-- The document is the print of what the description writes. -/
theorem render_eq_written :
    d.render registry = (Script.written Context.root (d.script registry)).document := by
  have hrun : Script.run (d.script registry) {} =
      (Script.written Context.root (d.script registry)).onto {} :=
    Script.run_eq_onto (d.script registry) {} (d.script_paired registry) rfl
  unfold render Script.document
  rw [hrun]
  generalize Script.written Context.root (d.script registry) = w
  obtain ⟨items, refusal⟩ := w
  cases refusal with
  | none =>
    show (Draft.finish (Draft.add {} items)).mapError _ = .ok (Item.printAll 0 true items)
    rw [Draft.finish_of_keeps (Draft.keeps_add {} items), Draft.add, String.empty_append]
    rfl
  | some why => rfl

/-- An accepted description is rendered as its tree, printed; any other is refused. -/
theorem render_of_check :
    d.render registry =
      match d.check registry with
      | .ok () => .ok (Item.printAll 0 true (Entry.allItems (d.tree registry)))
      | .error why => .error (.refused why) := by
  have hw := d.script_agrees registry
  rw [render_eq_written]
  generalize Script.written Context.root (d.script registry) = w at hw ⊢
  cases hc : d.check registry with
  | ok u =>
    rw [hc] at hw
    cases (hw : w = ⟨_, none⟩)
    rfl
  | error why =>
    rw [hc] at hw
    obtain ⟨items, refusal⟩ := w
    cases (hw : refusal = some why)
    rfl

variable {registry d} in
/-- What is rendered has been accepted. -/
theorem check_of_render {document : String} (h : d.render registry = .ok document) :
    d.check registry = .ok () := by
  rw [render_of_check] at h
  cases hc : d.check registry with
  | ok u => rfl
  | error why =>
    rw [hc] at h
    cases h

/-- **A description is rendered exactly when its check passes, and is refused for the same reason.**
The check knows the registry, the keyword of the block and the driver; it sees no text. -/
theorem render_eq_check :
    (d.render registry).map (fun _ => ()) = (d.check registry).mapError Failure.refused := by
  rw [render_of_check]
  cases d.check registry <;> rfl

end Description

end JobFile
