import JobFile.Proofs.Description.Inline

/-!
# What a node carries and its stanza does not read

* `Keyword.readsName`, `Keyword.readsValue`, `Keyword.readsValues`, `Keyword.holdsStanzas`,
  `Keyword.options`      : what a stanza reads of its node;
* `Node.Declared`        : a node has no member that its stanza does not know, and nothing inside a
  stanza that holds nothing;
* `Node.declared_of_check` : a node that is accepted is declared, and so is every node inside it;
* `Node.trimmed`         : a node without the name, the value and the values that are not read;
* `Node.script_trimmed`  : it writes the same;
* `Description.unread_passed_over` : both for whole descriptions.

Members are refused that no stanza knows, or not this one.  The name, the value and the values of a
node are known to every stanza, so they are passed over where they are not read.
-/

namespace JobFile

/-! ## What a stanza reads -/

namespace Keyword

/-- Is the name of the node read? -/
def readsName : Keyword → Bool
  | .job | .header | .credentials _ => true
  | .block s => s.naming ≠ .unnamed
  | .scalar _ | .textMap _ | .config | .package => false

/-- Is the value of the node read? -/
def readsValue : Keyword → Bool
  | .scalar _ | .header | .package | .credentials _ => true
  | .job | .block _ | .textMap _ | .config => false

/-- Are the values of the node read? -/
def readsValues : Keyword → Bool
  | .textMap _ | .config => true
  | .scalar _ | .job | .block _ | .header | .package | .credentials _ => false

/-- May other stanzas stand inside? -/
def holdsStanzas : Keyword → Bool
  | .job => true
  | .block s => s.isContainer
  | .scalar _ | .textMap _ | .config | .header | .package | .credentials _ => false

/-- The further members that the stanza knows. -/
def options : Keyword → List String
  | .block s => s.fields.map Field.name
  | .job | .scalar _ | .textMap _ | .config | .header | .package | .credentials _ => []

end Keyword

/-! ## Nodes inside nodes -/

mutual
/-- A node and those inside it, at any depth. -/
def Node.nodes : Node → List Node
  | ⟨stanza, name, value, values, children, fields⟩ =>
    ⟨stanza, name, value, values, children, fields⟩ :: Node.allNodes children
/-- Several nodes and those inside them. -/
def Node.allNodes : List Node → List Node
  | [] => []
  | n :: ns => n.nodes ++ Node.allNodes ns
end

/-- The nodes of a description, at any depth. -/
def Description.nodes (d : Description) : List Node := Node.allNodes d.stanzas

/-- The stanza of the node is known, knows all of its further members, and may hold what stands
inside. -/
def Node.Declared (n : Node) : Prop :=
  ∃ k, Keyword.ofText? n.stanza = some k ∧ (∀ key ∈ Entries.keys n.fields, key ∈ k.options) ∧
    (n.children ≠ [] → k.holdsStanzas = true)

/-! ## Accepted nodes are declared -/

theorem Form.mem_of_fill {fs : List Field} {F G : Form fs} {known : List String} {key : String}
    {value : Reading} (h : F.fill known key value = .ok G) : key ∈ fs.map Field.name := by
  induction F with
  | nil => cases h
  | @cons f fs filled rest ih =>
    by_cases hkey : f.name = key
    · exact hkey ▸ List.mem_cons_self
    · rw [Form.fill_of_ne hkey] at h
      obtain ⟨G', hG, -⟩ := ok_of_map h
      exact List.mem_cons_of_mem _ (ih hG)

theorem Form.keys_of_fillAll {fs : List Field} {known : List String} {r : Record fs}
    {ms : List (String × Json)} {F : Form fs}
    (h : F.fillAll known (Json.membersReading ms) = .ok r) :
    ∀ key ∈ Entries.keys ms, key ∈ fs.map Field.name := by
  induction ms generalizing F with
  | nil => exact nofun
  | cons m ms ih =>
    obtain ⟨G, hG, hrest⟩ := ok_of_bind h
    intro key hkey
    rcases List.mem_cons.1 hkey with rfl | hkey
    · exact Form.mem_of_fill hG
    · exact ih hrest key hkey

namespace Node

theorem keys_of_settings {n : Node} {s : Stanza} {settings : s.Settings}
    (h : n.settings s = .ok settings) :
    ∀ key ∈ Entries.keys n.fields, key ∈ (Keyword.block s).options :=
  Form.keys_of_fillAll (ok_of_mapError h)

theorem children_of_withoutChildren {n : Node} (h : n.withoutChildren = .ok ()) :
    n.children = [] := by
  unfold withoutChildren at h
  split at h
  · rename_i hempty
    exact List.isEmpty_iff.1 hempty
  · cases h

theorem fields_of_withoutFields {n : Node} (h : n.withoutFields = .ok ()) : n.fields = [] := by
  unfold withoutFields at h
  split at h
  · assumption
  · cases h

theorem settings_of_blockParts {n : Node} {s : Stanza} {parts : s.naming.Label × s.Settings}
    (h : n.blockParts s = .ok parts) : n.settings s = .ok parts.2 := by
  unfold blockParts at h
  split at h
  · obtain ⟨settings, hsettings, h⟩ := ok_of_bind h
    obtain ⟨label, -, h⟩ := ok_of_bind h
    cases h
    exact hsettings
  · obtain ⟨label, -, h⟩ := ok_of_bind h
    have hrest : (n.settings s >>= fun settings => pure (label, settings)) = .ok parts := by
      cases hs : s.isContainer with
      | true =>
        rw [hs] at h
        exact h
      | false =>
        rw [hs] at h
        obtain ⟨u, -, h⟩ := ok_of_bind (x := n.withoutChildren) h
        exact h
    obtain ⟨settings, hsettings, hparts⟩ := ok_of_bind hrest
    cases hparts
    exact hsettings

/-- A block whose settings are found is declared. -/
theorem declared_of_checkedSettings {n : Node} {s : Stanza} {settings : s.Settings}
    (hword : Keyword.ofText? n.stanza = some (.block s))
    (h : n.checkedSettings s = .ok settings) : n.Declared := by
  rw [checkedSettings_eq] at h
  obtain ⟨parts, hparts, -⟩ := ok_of_map h
  refine ⟨.block s, hword, keys_of_settings (settings_of_blockParts hparts), fun hchildren => ?_⟩
  show s.isContainer = true
  cases hs : s.isContainer with
  | true => rfl
  | false => exact absurd (children_of_blockParts hparts hs) hchildren

variable (registry : Registry)

/-- A stanza that is no block takes neither further members nor other stanzas. -/
theorem bare_of_checkPlain {parent driver : String} {n : Node} {k : Keyword} (hjob : k ≠ .job)
    (hblock : ∀ s, k ≠ .block s) (h : n.checkPlain registry parent driver k = .ok ()) :
    n.fields = [] ∧ n.children = [] := by
  have hbare : ∀ next : Except Refusal Unit, (do
      n.withoutChildren
      n.withoutFields
      next) = .ok () → n.fields = [] ∧ n.children = [] := by
    intro next h
    obtain ⟨_, hchildren, h⟩ := ok_of_bind h
    obtain ⟨_, hfields, -⟩ := ok_of_bind h
    exact ⟨fields_of_withoutFields hfields, children_of_withoutChildren hchildren⟩
  cases k with
  | job => exact absurd rfl hjob
  | block s => exact absurd rfl (hblock s)
  | scalar | textMap | config | package => exact hbare _ h
  | header | credentials =>
    obtain ⟨_, -, h⟩ := ok_of_bind h
    exact hbare _ h

mutual
theorem declared_of_check : ∀ {parent driver : String} (n : Node), parent ≠ Context.root →
    n.check registry parent driver = .ok () → ∀ m ∈ n.nodes, m.Declared
  | parent, driver, ⟨stanza, name, value, values, children, fields⟩, hparent, h => by
    have hcons : Node.Declared ⟨stanza, name, value, values, children, fields⟩ →
        (∀ m ∈ allNodes children, m.Declared) →
        ∀ m ∈ nodes ⟨stanza, name, value, values, children, fields⟩, m.Declared := by
      intro hself hinside m hm
      rcases List.mem_cons.1 hm with rfl | hm
      · exact hself
      · exact hinside m hm
    unfold check at h
    dsimp only at h
    cases hword : Keyword.ofText? stanza with
    | none =>
      rw [hword] at h
      cases h
    | some k =>
      rw [hword] at h
      cases k with
      | job =>
        obtain ⟨_, -, h⟩ := ok_of_bind h
        obtain ⟨_, hplace, -⟩ := ok_of_bind h
        unfold checkPlace at hplace
        rw [if_neg (mt List.mem_singleton.1 hparent)] at hplace
        cases hplace
      | block s =>
        obtain ⟨settings, hsettings, h⟩ := ok_of_bind h
        obtain ⟨_, -, h⟩ := ok_of_bind h
        obtain ⟨_, -, h⟩ := ok_of_bind h
        obtain ⟨_, -, h⟩ := ok_of_bind h
        have hroot : s.keyword ≠ Context.root := by cases s <;> decide
        exact hcons (declared_of_checkedSettings hword hsettings)
          (declared_of_checkAll children hroot h)
      | scalar | textMap | config | header | package | credentials =>
        obtain ⟨hfields, hchildren⟩ := bare_of_checkPlain registry (by simp) (by simp) h
        cases hfields
        cases hchildren
        exact hcons ⟨_, hword, nofun, fun h => absurd rfl h⟩ nofun
/-- Accepted nodes are declared, at any depth. -/
theorem declared_of_checkAll : ∀ {parent driver : String} (ns : List Node),
    parent ≠ Context.root → checkAll registry parent driver ns = .ok () →
    ∀ m ∈ allNodes ns, m.Declared
  | _, _, [], _, _ => nofun
  | parent, driver, n :: ns, hparent, h => by
    obtain ⟨_, hn, hns⟩ := ok_of_bind h
    intro m hm
    rcases List.mem_append.1 hm with hm | hm
    · exact declared_of_check n hparent hn m hm
    · exact declared_of_checkAll ns hparent hns m hm
end

end Node

/-! ## Without what is not read -/

/-- What is left of a member of the node: it goes if the stanza neither reads it nor knows it as an
option. -/
def Keyword.kept {α : Type} (k : Keyword) (member : String) (reads : Bool) (x : Option α) :
    Option α :=
  if reads || member ∈ k.options then x else none

mutual
/-- A node without the name, the value and the values that its stanza neither reads nor knows as
options, and the same inside it. -/
def Node.trimmed : Node → Node
  | ⟨stanza, name, value, values, children, fields⟩ =>
    match Keyword.ofText? stanza with
    | some k =>
      ⟨stanza, k.kept "name" k.readsName name, k.kept "value" k.readsValue value,
        k.kept "values" k.readsValues values, Node.allTrimmed children, fields⟩
    | none => ⟨stanza, name, value, values, Node.allTrimmed children, fields⟩
/-- Several nodes without what is not read. -/
def Node.allTrimmed : List Node → List Node
  | [] => []
  | n :: ns => n.trimmed :: Node.allTrimmed ns
end

/-- A description without what its nodes do not read. -/
def Description.trimmed (d : Description) : Description := ⟨d.job, Node.allTrimmed d.stanzas⟩

/-- All that the node carries is read by its stanza, or is the name of an option. -/
def Node.Trim (n : Node) : Prop :=
  ∀ k, Keyword.ofText? n.stanza = some k →
    (n.name ≠ none → k.readsName = true ∨ "name" ∈ k.options) ∧
      (n.value ≠ none → k.readsValue = true ∨ "value" ∈ k.options) ∧
      (n.values ≠ none → k.readsValues = true ∨ "values" ∈ k.options)

namespace Keyword

variable {α : Type} {k : Keyword} {member : String} {reads : Bool} {x : Option α}

theorem kept_of_reads (reads : Bool) (h : reads = true) : k.kept member reads x = x := by
  simp [kept, h]

theorem reads_of_kept (h : k.kept member reads x ≠ none) : reads = true ∨ member ∈ k.options := by
  by_contra hnone
  rw [not_or] at hnone
  exact h (by simp [kept, hnone])

end Keyword

namespace Node

theorem allTrimmed_isEmpty (ns : List Node) : (allTrimmed ns).isEmpty = ns.isEmpty := by
  cases ns <;> rfl

/-- A block does not look at a name that it cannot carry. -/
theorem ofName?_kept (s : Stanza) (name : Option String) :
    s.naming.ofName? ((Keyword.block s).kept "name" (Keyword.block s).readsName name) =
      s.naming.ofName? name := by
  cases s <;> rfl

section Parts

variable (stanza : String) (name name' : Option String) (value value' : Option Value)
  (values values' : Option (List (String × Value))) (children : List Node)
  (fields : List (String × Json))

theorem blockParts_trimmed (s : Stanza) :
    blockParts ⟨stanza, (Keyword.block s).kept "name" (Keyword.block s).readsName name, value',
        values', allTrimmed children, fields⟩ s =
      blockParts ⟨stanza, name, value, values, children, fields⟩ s := by
  unfold blockParts label withoutChildren
  simp only [ofName?_kept, allTrimmed_isEmpty]
  rfl

theorem scalarValue_trimmed :
    scalarValue ⟨stanza, name', value, values', allTrimmed children, fields⟩ =
      scalarValue ⟨stanza, name, value, values, children, fields⟩ := by
  unfold scalarValue withoutChildren
  simp only [allTrimmed_isEmpty]
  rfl

theorem entries_trimmed :
    entries ⟨stanza, name', value', values, allTrimmed children, fields⟩ =
      entries ⟨stanza, name, value, values, children, fields⟩ := by
  unfold entries withoutChildren
  simp only [allTrimmed_isEmpty]
  rfl

theorem plainScript_trimmed (registry : Registry) (driver : String) (k : Keyword) :
    plainScript registry driver ⟨stanza, k.kept "name" k.readsName name,
        k.kept "value" k.readsValue value, k.kept "values" k.readsValues values,
        allTrimmed children, fields⟩ k =
      plainScript registry driver ⟨stanza, name, value, values, children, fields⟩ k := by
  have hvalue := fun name' values' =>
    scalarValue_trimmed stanza name name' value values values' children fields
  have hvalues := fun name' value' =>
    entries_trimmed stanza name name' value value' values children fields
  cases k with
  | job | block => rfl
  | scalar s =>
    rw [Keyword.kept_of_reads (Keyword.scalar s).readsValue rfl]
    cases s <;>
      simp only [plainScript, scalarSetting, textValue, textsValue, wrongKind, hvalue]
  | textMap m =>
    rw [Keyword.kept_of_reads (Keyword.textMap m).readsValues rfl]
    simp only [plainScript, textEntries, hvalues]
  | config =>
    rw [Keyword.kept_of_reads Keyword.config.readsValues rfl]
    simp only [plainScript, hvalues]
  | package =>
    rw [Keyword.kept_of_reads Keyword.package.readsValue rfl]
    simp only [plainScript, textValue, wrongKind, hvalue]
  | header =>
    rw [Keyword.kept_of_reads Keyword.header.readsName rfl,
      Keyword.kept_of_reads Keyword.header.readsValue rfl]
    simp only [plainScript, givenName, textsValue, hvalue]
  | credentials c =>
    rw [Keyword.kept_of_reads (Keyword.credentials c).readsName rfl,
      Keyword.kept_of_reads (Keyword.credentials c).readsValue rfl]
    simp only [plainScript, givenName, textsValue, hvalue]

end Parts

variable (registry : Registry)

mutual
theorem script_trimmed : ∀ (driver : String) (n : Node),
    n.trimmed.script registry driver = n.script registry driver
  | driver, ⟨stanza, name, value, values, children, fields⟩ => by
    have hchildren := fun driver => scripts_trimmed driver children
    rw [trimmed]
    cases hword : Keyword.ofText? stanza with
    | none => simp only [script, hword]
    | some k =>
      cases k with
      | job =>
        simp only [script, hword, hchildren]
        rfl
      | block s =>
        simp only [script, hword, hchildren]
        rw [blockParts_trimmed]
      | scalar | textMap | config | header | package | credentials =>
        simp only [script, hword, plainScript_trimmed]
theorem scripts_trimmed : ∀ (driver : String) (ns : List Node),
    scripts registry driver (allTrimmed ns) = scripts registry driver ns
  | _, [] => rfl
  | driver, n :: ns => by
    rw [allTrimmed, scripts, scripts, script_trimmed driver n, scripts_trimmed driver ns]
end

mutual
theorem trim_trimmed : ∀ n : Node, ∀ m ∈ n.trimmed.nodes, m.Trim
  | ⟨stanza, name, value, values, children, fields⟩, m, hm => by
    have hchildren := trim_allTrimmed children
    rw [trimmed] at hm
    cases hword : Keyword.ofText? stanza with
    | none =>
      rw [hword] at hm
      rcases List.mem_cons.1 hm with rfl | hm
      · intro k hk
        cases hword.symm.trans hk
      · exact hchildren m hm
    | some k =>
      rw [hword] at hm
      rcases List.mem_cons.1 hm with rfl | hm
      · intro k' hk
        cases hword.symm.trans hk
        exact ⟨Keyword.reads_of_kept, Keyword.reads_of_kept, Keyword.reads_of_kept⟩
      · exact hchildren m hm
theorem trim_allTrimmed : ∀ ns : List Node, ∀ m ∈ allNodes (allTrimmed ns), m.Trim
  | [], _, hm => nomatch hm
  | n :: ns, m, hm => by
    rcases List.mem_append.1 hm with hm | hm
    · exact trim_trimmed n m hm
    · exact trim_allTrimmed ns m hm
end

end Node

/-! ## Whole descriptions -/

namespace Description

/-- **What no stanza of its kind declares is refused at any depth; a name, a value or values that
are not read are passed over.**  Where the document is written, every node is of a known stanza,
has no further member but the options of its stanza, and holds others only if its stanza may.  A
node that is not so is refused wherever it stands.  For the name, the value and the values nothing
is checked: the description without those that are neither read nor options is rendered to the same
document or refused for the same reason. -/
theorem unread_passed_over (registry : Registry) (d : Description) :
    (∀ document, d.render registry = .ok document → ∀ n ∈ d.nodes, n.Declared) ∧
    (∀ n ∈ d.nodes, ¬ n.Declared → ∃ why, d.render registry = .error (.refused why)) ∧
    d.trimmed.render registry = d.render registry ∧ ∀ n ∈ d.trimmed.nodes, n.Trim := by
  have hdeclared : d.check registry = .ok () → ∀ n ∈ d.nodes, n.Declared :=
    Node.declared_of_checkAll registry d.stanzas (by decide)
  refine ⟨fun document h => ?_, fun n hn hundeclared => ?_, ?_, Node.trim_allTrimmed d.stanzas⟩
  · rw [render_of_check] at h
    cases hcheck : d.check registry with
    | ok u => exact hdeclared hcheck
    | error why =>
      rw [hcheck] at h
      cases h
  · rw [render_of_check]
    cases hcheck : d.check registry with
    | ok u => exact absurd (hdeclared hcheck n hn) hundeclared
    | error why => exact ⟨why, rfl⟩
  · unfold render script trimmed
    rw [Node.scripts_trimmed]

/-- Resources with their settings in the wrong places. -/
def misplacedJson : Json :=
  .object [("stanza", .string "resources"), ("name", .string "large"), ("value", .ofInt 512),
    ("values", .object [("memory", .ofInt 512)])]

/-- The same, as it is read. -/
def misplacedNode : Node where
  stanza := "resources"
  name := some "large"
  value := some (.integer 512)
  values := some [("memory", .integer 512)]

/-- A name, a value and values that are not read are dropped: the block is written, and is empty. -/
theorem unread_members_dropped :
    JobFile.parse decode (Definition.taskJson misplacedJson).text =
        .ok ⟨"j", Definition.taskPlace.fill misplacedNode⟩ ∧
      rendered {} (Definition.taskJson misplacedJson).text = .ok (.ok
        ("job \"j\" \x7b\n  group \"g\" \x7b\n    task \"t\" \x7b\n      driver = \"exec\"\n\n"
          ++ "      resources \x7b\n      \x7d\n    \x7d\n  \x7d\n\x7d\n")) ∧
      misplacedNode ∈ nodes ⟨"j", Definition.taskPlace.fill misplacedNode⟩ ∧
      Keyword.ofText? misplacedNode.stanza = some (.block .resources) ∧
      (misplacedNode.name.isSome ∧ (Keyword.block .resources).readsName = false) ∧
      (misplacedNode.value.isSome ∧ (Keyword.block .resources).readsValue = false) ∧
      misplacedNode.values.isSome ∧ (Keyword.block .resources).readsValues = false := by
  have hplain : (Definition.taskJson misplacedJson).Plain maxDepth := by cbv
  have hread : decode (Definition.taskJson misplacedJson).reading =
    .ok ⟨"j", Definition.taskPlace.fill misplacedNode⟩ := rfl
  refine ⟨?_, ?_, ?_, rfl, ⟨rfl, rfl⟩, ⟨rfl, rfl⟩, rfl, rfl⟩
  · rw [parse_text hplain, hread]
  · rw [rendered_of_check hplain hread rfl]
    rfl
  · simp [nodes, Node.Place.fill, Definition.taskPlace, misplacedNode, Node.allNodes, Node.nodes]

end Description

end JobFile
