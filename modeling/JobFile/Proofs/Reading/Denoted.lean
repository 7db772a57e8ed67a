import JobFile.Proofs.Description.Chosen
import JobFile.Proofs.Description.Rendering
import JobFile.Proofs.Reading.CredentialLines
import JobFile.Proofs.Reading.Legible

/-!
# What is denoted is legible

* `Chosen.Legible`        : a chosen key is plain, and no line of a chosen document is an end mark;
* `Value.entries_legible`, `Stanza.entry_legible`, `Credentials.entry_legible` : what is denoted is
  legible if what has been chosen is;
* `Node.tree_legible`     : so is the tree of a node, with all that is inside it;
* `Description.tree_legible` : so is the tree of a description.
-/

namespace JobFile

/-- Can something that is chosen be read back? -/
def Chosen.Legible : Chosen → Prop
  | .key k => Text.isPlain k
  | .document text => Assign.endMark.toList ∉ text.toList.splitOn '\n'

instance (c : Chosen) : Decidable c.Legible :=
  match c with
  | .key _ => inferInstanceAs (Decidable (_ = true))
  | .document _ => inferInstanceAs (Decidable (¬_))

theorem Chosen.legible_of {cs : List Chosen} (hkeys : ∀ k, .key k ∈ cs → Text.isPlain k)
    (hdocuments : ∀ text, .document text ∈ cs →
      Assign.endMark.toList ∉ text.toList.splitOn '\n') : ∀ c ∈ cs, c.Legible := by
  intro c hc
  cases c with
  | key k => exact hkeys k hc
  | document text => exact hdocuments text hc

/-! ## Fixed keys -/

theorem Stanza.keyword_plain (s : Stanza) : Text.isPlain s.keyword := by
  cases s <;> decide

theorem Stanza.field_plain (s : Stanza) : ∀ f ∈ s.fields, Text.isPlain f.name := by
  cases s <;> decide

theorem Scalar.keyword_plain (s : Scalar) : Text.isPlain s.keyword := by
  cases s <;> decide

theorem TextMap.keyword_plain (m : TextMap) : Text.isPlain m.keyword := by
  cases m <;> decide

/-! ## Values -/

theorem Entry.text_legible {key : String} (h : Text.isPlain key) (value : String) :
    (Entry.text key value).Legible :=
  ⟨h, Text.oneLine_quote value⟩

theorem Entry.texts_legible {key : String} (h : Text.isPlain key) (values : List String) :
    (Entry.texts key values).Legible :=
  ⟨h, Text.oneLine_quoteAll values⟩

theorem Entry.allLegible_singleton {e : Entry} (h : e.Legible) : Entry.AllLegible [e] :=
  ⟨h, trivial⟩

theorem Entry.textMap_legible {key : String} (h : Text.isPlain key) (es : Entries String)
    (hes : ∀ k ∈ es.keys, Text.isPlain k) : (Entry.textMap key es).Legible := by
  refine ⟨h, ?_⟩
  induction es with
  | nil => exact trivial
  | cons e es ih =>
    have hrest := ih fun k hk => hes k (List.mem_cons_of_mem e.1 hk)
    exact ⟨Entry.text_legible (hes e.1 List.mem_cons_self) e.2, hrest⟩

theorem Kind.entry_legible {key : String} (h : Text.isPlain key) (k : Kind) (v : k.Carrier)
    (hv : ∀ c ∈ k.chosen v, c.Legible) : (k.entry key v).Legible := by
  cases k with
  | text => exact Entry.text_legible h v
  | document => exact ⟨h, hv _ List.mem_cons_self⟩
  | integer => exact ⟨h, Text.oneLine_int _⟩
  | flag => exact ⟨h, Text.oneLine_bool v⟩
  | texts => exact Entry.texts_legible h v
  | textMap =>
    refine Entry.textMap_legible h v fun k hk => ?_
    exact hv (.key k) (List.mem_map_of_mem hk)

mutual
/-- The entries of a value are legible if its keys are plain. -/
theorem Value.entries_legible : ∀ (v : Value) {key : String}, Text.isPlain key →
    (∀ k ∈ v.keys, Text.isPlain k) → Entry.AllLegible (v.entries key)
  | .boolean b, _, h, _ => ⟨⟨h, Text.oneLine_bool b⟩, trivial⟩
  | .integer i, _, h, _ => ⟨⟨h, Text.oneLine_int _⟩, trivial⟩
  | .text s, _, h, _ => by
    unfold Value.entries
    split
    · rename_i hs
      exact Entry.allLegible_singleton ⟨h, Text.oneLine_of_denotesInteger hs⟩
    · exact Entry.allLegible_singleton (Entry.text_legible h s)
  | .list _, _, h, _ => Entry.allLegible_singleton (Entry.texts_legible h _)
  | .double _, _, _, _ => trivial
  | .map es, _, h, hes => ⟨⟨h, Value.allEntries_legible es hes⟩, trivial⟩
/-- The entries of values under their keys are legible if all keys are plain. -/
theorem Value.allEntries_legible : ∀ es : List (String × Value),
    (∀ k ∈ Value.allKeys es, Text.isPlain k) → Entry.AllLegible (Value.allEntries es)
  | [], _ => trivial
  | (k, v) :: es, h => by
    have hk : Text.isPlain k := h k List.mem_cons_self
    have hv := Value.entries_legible v hk fun k' hk' =>
      h k' (List.mem_cons_of_mem k (List.mem_append_left _ hk'))
    have hes := Value.allEntries_legible es fun k' hk' =>
      h k' (List.mem_cons_of_mem k (List.mem_append_right _ hk'))
    exact hv.append hes
end

/-- The keys of entries are among all their keys. -/
theorem Value.mem_allKeys {es : Entries Value} {k : String} (h : k ∈ es.keys) :
    k ∈ Value.allKeys es := by
  induction es with
  | nil => cases h
  | cons e es ih =>
    rcases List.mem_cons.1 h with rfl | h
    · exact List.mem_cons_self
    · exact List.mem_cons_of_mem _ (List.mem_append_right _ (ih h))

/-! ## Blocks -/

theorem Field.entries_legible (f : Field) (hf : Text.isPlain f.name)
    (value : Option f.kind.Carrier) (h : ∀ c ∈ f.chosen value, c.Legible) :
    Entry.AllLegible (f.entries value) := by
  unfold Field.chosen at h
  unfold Field.entries
  cases hv : f.effective value with
  | none => exact trivial
  | some v =>
    rw [hv] at h
    exact Entry.allLegible_singleton (f.kind.entry_legible hf v h)

theorem Record.entries_legible : ∀ {fs : List Field} (r : Record fs),
    (∀ f ∈ fs, Text.isPlain f.name) → (∀ c ∈ r.chosen, c.Legible) →
    ∀ es ∈ r.entries, Entry.AllLegible es
  | [], .nil, _, _, _, hes => by cases hes
  | f :: fs, .cons slot rest, hfs, h, es, hes => by
    rcases List.mem_cons.1 hes with rfl | hes
    · exact f.entries_legible (hfs f List.mem_cons_self) _
        fun c hc => h c (List.mem_append_left _ hc)
    · exact rest.entries_legible (fun g hg => hfs g (List.mem_cons_of_mem f hg))
        (fun c hc => h c (List.mem_append_right _ hc)) es hes

theorem Stanza.entry_legible (s : Stanza) (label : s.naming.Label) (settings : s.Settings)
    (inner : List Entry) (h : ∀ c ∈ settings.chosen, c.Legible)
    (hinner : Entry.AllLegible inner) : (s.entry label settings inner).Legible := by
  have hfields : Entry.AllLegible (s.arrange settings.entries).flatten := by
    apply Entry.allLegible_flatten
    intro es hes
    exact settings.entries_legible s.field_plain h es ((s.mem_arrange _ es).1 hes)
  unfold Stanza.entry
  split
  · exact s.keyword_plain
  · exact ⟨s.keyword_plain, hfields.append hinner⟩

theorem Config.entries_legible (driver : String) (values : Entries Value)
    (h : ∀ k ∈ Value.allKeys values, Text.isPlain k) :
    Entry.AllLegible (Config.entries driver values) := by
  have hcommand : Text.isPlain "command" := by decide
  have hargs : Text.isPlain "args" := by decide
  unfold Config.entries
  split
  · refine Entry.AllLegible.append ?_ ?_
    · split
      · exact Entry.allLegible_singleton (Entry.text_legible hcommand _)
      · exact trivial
    · split
      · exact Entry.allLegible_singleton (Entry.texts_legible hargs _)
      · exact trivial
  · exact Value.allEntries_legible values h

theorem Registry.packageEntries_legible (registry : Registry) (id : String)
    (h : ∀ c ∈ registry.packageChosen id, c.Legible) :
    Entry.AllLegible (registry.packageEntries id) := by
  unfold Registry.packageChosen at h
  unfold Registry.packageEntries
  cases hid : registry.get? id with
  | none => exact trivial
  | some artifact =>
    rw [hid] at h
    exact Entry.allLegible_singleton (Stanza.artifact.entry_legible () artifact [] h trivial)

/-! ## Credentials -/

theorem Credentials.entry_legible (c : Credentials) (name : String) (paths : List String) :
    (c.entry name paths).Legible := by
  apply Stanza.entry_legible
  · intro chosen hc
    have htext : chosen = .document (Text.trimEnd (c.store.template paths !c.preloaded)) := by
      have hchosen : (c.settings name paths).chosen =
          [.document (Text.trimEnd (c.store.template paths !c.preloaded))] := by
        obtain ⟨store, preloaded⟩ := c
        cases preloaded <;> rfl
      rw [hchosen] at hc
      exact List.mem_singleton.1 hc
    rw [htext]
    exact c.store.endMark_not_mem_template paths _
  · exact trivial

/-! ## Nodes -/

namespace Node

variable (registry : Registry) (driver : String)

theorem entriesOf_legible {α : Type} {entry : α → Entry} {x : Except Refusal α}
    (h : ∀ a, x = .ok a → (entry a).Legible) : Entry.AllLegible (entriesOf entry x) := by
  cases hx : x with
  | ok a => exact Entry.allLegible_singleton (h a hx)
  | error why => exact trivial

theorem eq_of_entries {n : Node} {es : Entries Value} (h : n.entries = .ok es) :
    es = n.values.getD [] := by
  obtain ⟨_, -, hfields⟩ := ok_of_bind h
  obtain ⟨_, -, hvalues⟩ := ok_of_bind hfields
  cases hvalues
  rfl

/-- Turning values into texts keeps their keys. -/
theorem keys_of_textEntries {n : Node} {es : Entries String} (h : n.textEntries = .ok es) :
    es.keys = Entries.keys (n.values.getD []) := by
  obtain ⟨values, hvalues, htexts⟩ := ok_of_bind h
  rw [← eq_of_entries hvalues]
  rw [scalarTexts_eq] at htexts
  cases hc : Value.checkScalars values with
  | error why =>
    rw [hc] at htexts
    cases htexts
  | ok u =>
    rw [hc] at htexts
    cases htexts
    simp [Entries.keys]

theorem name_of_named {n : Node} {name : String} {texts : List String}
    (h : (do pure (← n.givenName, ← n.textsValue)) = Except.ok (name, texts)) :
    n.name = some name := by
  obtain ⟨given, hgiven, hrest⟩ := ok_of_bind h
  obtain ⟨values, -, hpair⟩ := ok_of_bind hrest
  cases hpair
  unfold givenName at hgiven
  cases hn : n.name with
  | none =>
    rw [hn] at hgiven
    cases hgiven
  | some name =>
    rw [hn] at hgiven
    cases hgiven
    rfl

theorem plainTree_legible (n : Node) (k : Keyword)
    (h : ∀ c ∈ n.ownChosen registry k, c.Legible) :
    Entry.AllLegible (n.plainTree registry driver k) := by
  cases k with
  | scalar s =>
    refine entriesOf_legible fun a _ => s.kind.entry_legible s.keyword_plain a ?_
    cases s <;> nofun
  | job | block s => exact trivial
  | textMap m =>
    refine entriesOf_legible fun es hes => Entry.textMap_legible m.keyword_plain es ?_
    intro k hk
    rw [keys_of_textEntries hes] at hk
    exact h (.key k) (List.mem_map_of_mem (Value.mem_allKeys hk))
  | config =>
    refine entriesOf_legible fun es hes => ⟨by decide, Config.entries_legible driver es ?_⟩
    intro k hk
    rw [eq_of_entries hes] at hk
    exact h (.key k) (List.mem_map_of_mem hk)
  | header =>
    refine entriesOf_legible fun a ha => ?_
    obtain ⟨name, values⟩ := a
    have hname := name_of_named ha
    have hplain : Text.isPlain name := h (.key name) (by simp [ownChosen, hname])
    exact ⟨by decide, Entry.texts_legible hplain values, trivial⟩
  | package =>
    unfold ownChosen at h
    unfold plainTree
    dsimp only at h ⊢
    cases hid : n.textValue with
    | error why => exact trivial
    | ok id =>
      rw [hid] at h
      exact registry.packageEntries_legible id h
  | credentials c => exact entriesOf_legible fun _ _ => c.entry_legible _ _

mutual
/-- **What a node denotes is legible if what has been chosen with it is.** -/
theorem tree_legible (registry : Registry) : ∀ (driver : String) (n : Node),
    (∀ c ∈ n.chosen registry, c.Legible) → Entry.AllLegible (n.tree registry driver)
  | driver, ⟨stanza, name, value, values, children, fields⟩, h => by
    have hchildren := fun driver => trees_legible registry driver children fun c hc =>
      h c (List.mem_append_right _ hc)
    have hown := fun c hc => h c (List.mem_append_left _ hc)
    unfold tree
    dsimp only at hown ⊢
    cases hk : Keyword.ofText? stanza with
    | none => exact trivial
    | some k =>
      rw [hk] at hown
      cases k with
      | job => exact Entry.allLegible_singleton ⟨by decide, hchildren driver⟩
      | block s =>
        dsimp only [ownChosen] at hown ⊢
        split
        · rename_i label settings hparts
          rw [hparts] at hown
          exact Entry.allLegible_singleton (s.entry_legible label settings _ hown (hchildren _))
        · exact trivial
      | _ => exact plainTree_legible registry driver _ _ hown
theorem trees_legible (registry : Registry) : ∀ (driver : String) (ns : List Node),
    (∀ c ∈ allChosen registry ns, c.Legible) → Entry.AllLegible (trees registry driver ns)
  | _, [], _ => trivial
  | driver, n :: ns, h => by
    have hn := tree_legible registry driver n fun c hc => h c (List.mem_append_left _ hc)
    have hns := trees_legible registry driver ns fun c hc => h c (List.mem_append_right _ hc)
    exact hn.append hns
end

end Node

/-- **The tree of a description is legible if what has been chosen in it is.** -/
theorem Description.tree_legible {registry : Registry} {d : Description}
    (h : ∀ c ∈ d.chosen registry, c.Legible) : Entry.AllLegible (d.tree registry) :=
  ⟨⟨by decide, Node.trees_legible registry standardDriver d.stanzas h⟩, trivial⟩

end JobFile
