import JobFile.Description.Render
import JobFile.Proofs.Description.Members
import JobFile.Proofs.Record.Filled

/-!
# Settings as they arrive

* `Record.received`     : what arrives of a record that is sent as the fields of a node: a field
  with the name of a shared member gets lost, and a text map is sorted;
* `Record.Arrives`      : all of it arrives;
* `Stanza.json`         : a block of the catalog as a node, with its settings as fields;
* `Stanza.decode_json`  : this node is decoded, with the settings as they arrive;
* `Node.script_of_parts`, `Node.script_of_refusal` : what the node of a block writes, given the
  parts of the block or the refusal of one.
-/

namespace JobFile

/-! ## What arrives of a record -/

/-- What arrives of a value. -/
def Kind.received : (k : Kind) → k.Carrier → k.Carrier
  | .textMap, es => Json.insertAll [] es
  | .text, v | .document, v | .integer, v | .flag, v | .texts, v => v

/-- A value with which something is done, unless it gets lost. -/
def Slot.received {α : Type} (lost : Bool) (receive : α → α) :
    {mandatory : Bool} → Slot mandatory α → Slot mandatory α
  | true, a => receive a
  | false, a => if lost then none else a.map receive

/-- What arrives of a record. -/
def Record.received : {fs : List Field} → Record fs → Record fs
  | [], .nil => .nil
  | f :: _, .cons slot rest =>
    .cons (slot.received (f.name ∈ Node.sharedKeys) f.kind.received) rest.received

/-- Is a text map in order?  All other values are. -/
def Kind.Ascending : (k : Kind) → k.Carrier → Prop
  | .textMap, es => Entries.Ascending es
  | .text, _ | .document, _ | .integer, _ | .flag, _ | .texts, _ => True

instance : (k : Kind) → (v : k.Carrier) → Decidable (k.Ascending v)
  | .textMap, es => inferInstanceAs (Decidable (List.Pairwise (fun a b => a.1 < b.1) es))
  | .text, _ | .document, _ | .integer, _ | .flag, _ | .texts, _ => isTrue trivial

/-- No field that is set has the name of a shared member, and every text map is in order. -/
def Record.Arrives {fs : List Field} (r : Record fs) : Prop :=
  r.All fun f v => f.name ∉ Node.sharedKeys ∧ f.kind.Ascending v

instance {fs : List Field} (r : Record fs) : Decidable r.Arrives :=
  inferInstanceAs (Decidable (r.All _))

theorem Kind.received_of_ascending (k : Kind) {v : k.Carrier} (h : k.Ascending v) :
    k.received v = v := by
  cases k with
  | textMap => exact Json.insertAll_of_ascending h
  | _ => rfl

theorem Slot.get?_received {α : Type} {mandatory : Bool} (hfree : mandatory = false) (lost : Bool)
    (receive : α → α) (slot : Slot mandatory α) :
    (slot.received lost receive).get? = if lost then none else slot.get?.map receive := by
  subst hfree
  rfl

namespace Kind

/-- A value passes through untyped JSON as it arrives. -/
theorem decodeJson_json : ∀ (k : Kind) (v : k.Carrier),
    (k.json v).reading.decodeJson = .ok (k.json (k.received v))
  | .text, _ | .document, _ | .flag, _ => rfl
  | .integer, i => by
    obtain ⟨exact, hi⟩ := Json.ofInt_toInt i
    show (Json.ofInt i.toInt).reading.decodeJson = .ok (Json.ofInt i.toInt)
    rw [hi]
    rfl
  | .texts, items => by
    have hback : ∀ v ∈ items.map Json.string, ReadsBack Reading.decodeJson id 0 v := by
      intro v hv
      obtain ⟨s, -, rfl⟩ := List.mem_map.1 hv
      exact ⟨by simp [Json.Plain], rfl⟩
    exact (Reading.readsBack_array hback).decoded
  | .textMap, es => by
    have hback : ∀ m ∈ es.map fun e => (e.1, Json.string e.2),
        ReadsBack Reading.decodeJson id 0 m.2 := by
      intro m hm
      obtain ⟨e, -, rfl⟩ := List.mem_map.1 hm
      exact ⟨by simp [Json.Plain], rfl⟩
    have hmap := Json.insertAll_map Json.string [] es
    show (Reading.decodeJsonMembers []
      (Json.membersReading (es.map fun e => (e.1, Json.string e.2)))).map Json.object = _
    rw [Reading.decodeJson_members hback]
    exact congrArg (fun ms => Except.ok (Json.object ms)) hmap

theorem distinct_received (k : Kind) (v : k.Carrier) : k.Distinct (k.received v) := by
  cases k with
  | textMap => exact (Json.ascending_insertAll List.Pairwise.nil).nodup
  | _ => trivial

end Kind

namespace Record

theorem distinct_received {fs : List Field} (r : Record fs) :
    r.received.All fun f => f.kind.Distinct := by
  induction r with
  | nil => trivial
  | @cons f fs slot rest ih =>
    refine ⟨fun v hv => ?_, ih⟩
    obtain ⟨name, kind, mandatory, required, fallback, choices⟩ := f
    cases mandatory with
    | true =>
      cases hv
      exact kind.distinct_received _
    | false =>
      rw [Slot.get?_received rfl] at hv
      split at hv
      · cases hv
      · obtain ⟨w, -, rfl⟩ := Option.map_eq_some_iff.1 hv
        exact kind.distinct_received w

theorem received_of_arrives {fs : List Field} {r : Record fs} (h : r.Arrives) :
    r.received = r := by
  induction r with
  | nil => rfl
  | @cons f fs slot rest ih =>
    have hslot : slot.received (f.name ∈ Node.sharedKeys) f.kind.received = slot := by
      have hset := h.1
      obtain ⟨name, kind, mandatory, required, fallback, choices⟩ := f
      cases mandatory with
      | true => exact kind.received_of_ascending (hset slot rfl).2
      | false =>
        cases slot with
        | none => exact ite_self none
        | some v =>
          obtain ⟨hname, hv⟩ := hset v rfl
          have hlost : decide (name ∈ Node.sharedKeys) = false := decide_eq_false hname
          show (if decide (name ∈ Node.sharedKeys) = true then none else _) = _
          rw [hlost]
          exact congrArg some (kind.received_of_ascending hv)
    rw [received, hslot, ih h.2]

end Record

/-- Fields that have been put in place are decoded as the record that they come from. -/
theorem Record.decode_received {fs : List Field} (r : Record fs)
    (hnames : (fs.map Field.name).Nodup) (name : String) :
    Record.decode name fs (Json.object (Json.insertAll [] r.received.present)).reading =
      .ok r.received := by
  have hsorted : Entries.Ascending (Json.insertAll [] r.received.present) :=
    Json.ascending_insertAll List.Pairwise.nil
  refine Record.decode_members hnames hsorted.nodup (fun m hm => ?_) ?_ name
  · rcases Json.mem_insertAll hm with hm | hm
    · cases hm
    · exact Record.reads_of_present hnames r.distinct_received hm
  · exact (Record.within_present r.received).mono fun k hk =>
      Json.mem_keys_insertAll.2 (.inr hk)

/-! ## Settings as fields of a node -/

/-- Which fields have the name of a shared member?  All are texts. -/
def Field.Sent (f : Field) (d : NodeForm) : Prop :=
  f.name ∈ Node.sharedKeys → f.kind = .text ∧
    (f.name = "name" ∧ d.name = none ∨ f.name = "value" ∧ d.value = none)

/-- What a field of a record fills into the form of a node. -/
theorem Field.decodeMembers_json {d : NodeForm} (f : Field) (hsent : f.Sent d)
    (v : f.kind.Carrier) (ms : List (String × Json)) :
    ∃ e : NodeForm, Node.decodeMembers d (Json.membersReading ((f.name, f.kind.json v) :: ms)) =
        Node.decodeMembers e (Json.membersReading ms) ∧
      e.stanza = d.stanza ∧ e.children = d.children ∧
      e.fields = (if f.name ∈ Node.sharedKeys then d.fields
        else Json.insert f.name (f.kind.json (f.kind.received v)) d.fields) ∧
      (f.name ≠ "name" → e.name = d.name) ∧ (f.name ≠ "value" → e.value = d.value) := by
  obtain ⟨name, kind, mandatory, required, fallback, choices⟩ := f
  by_cases hshared : name ∈ Node.sharedKeys
  · obtain ⟨htext, hname | hvalue⟩ := hsent hshared
    · obtain ⟨hkey, hfree⟩ := hname
      cases htext
      cases hkey
      have hread := Node.decodeMembers_name hfree (some v) ms
      exact ⟨_, hread, rfl, rfl, (if_pos hshared).symm, fun hne => absurd rfl hne, fun _ => rfl⟩
    · obtain ⟨hkey, hfree⟩ := hvalue
      cases htext
      cases hkey
      have hgiven : ∀ w, some (Value.text v) = some w → Value.decode w.json.reading = .ok w := by
        rintro w ⟨⟩
        rfl
      have hread := Node.decodeMembers_value hfree hgiven ms
      exact ⟨_, hread, rfl, rfl, (if_pos hshared).symm, fun _ => rfl, fun hne => absurd rfl hne⟩
  · have hread := Node.decodeMembers_field (d := d) hshared (kind.decodeJson_json v) ms
    exact ⟨_, hread, rfl, rfl, (if_neg hshared).symm, fun _ => rfl, fun _ => rfl⟩

/-- **What a record fills into the form of a node**: its fields as they arrive. -/
theorem Record.decodeMembers_present {fs : List Field} (r : Record fs)
    (hfree : ∀ f ∈ fs, f.mandatory = false) (hnames : (fs.map Field.name).Nodup) {d : NodeForm}
    (hsent : ∀ f ∈ fs, f.Sent d) :
    ∃ e : NodeForm, Node.decodeMembers d (Json.membersReading r.present) = e.finish ∧
      e.stanza = d.stanza ∧ e.children = d.children ∧
      e.fields = Json.insertAll d.fields r.received.present ∧
      ("name" ∉ fs.map Field.name → e.name = d.name) := by
  induction r generalizing d with
  | nil => exact ⟨d, rfl, rfl, rfl, rfl, fun _ => rfl⟩
  | @cons f fs slot rest ih =>
    rw [List.map_cons, List.nodup_cons] at hnames
    have hreceived : (Record.cons slot rest).received.present =
        presentMember f.name f.kind.json
          (if f.name ∈ Node.sharedKeys then none else slot.get?.map f.kind.received)
          ++ rest.received.present := by
      rw [received, present, Slot.get?_received (hfree f List.mem_cons_self)]
      simp only [decide_eq_true_eq]
    have hlater : ∀ g ∈ fs, g.name ≠ f.name := by
      intro g hg heq
      exact hnames.1 (heq ▸ List.mem_map_of_mem hg)
    rw [hreceived, present, Json.insertAll_append]
    cases slot.get? with
    | none =>
      obtain ⟨e, hread, hstanza, hchildren, hfields, hname⟩ :=
        ih (fun g hg => hfree g (List.mem_cons_of_mem f hg)) hnames.2
          fun g hg => hsent g (List.mem_cons_of_mem f hg)
      refine ⟨e, hread, hstanza, hchildren, ?_, fun h => hname fun hmem => ?_⟩
      · rw [Option.map_none, ite_self]
        exact hfields
      · exact h (List.mem_cons_of_mem _ hmem)
    | some v =>
      obtain ⟨c, hhead, hstanza, hchildren, hfields, hname, hvalue⟩ :=
        f.decodeMembers_json (hsent f List.mem_cons_self) v rest.present
      have hrest : ∀ g ∈ fs, g.Sent c := by
        intro g hg hshared
        obtain ⟨htext, h⟩ := hsent g (List.mem_cons_of_mem f hg) hshared
        refine ⟨htext, ?_⟩
        rcases h with ⟨hkey, hnone⟩ | ⟨hkey, hnone⟩
        · have hsame := hname fun heq => hlater g hg (hkey.trans heq.symm)
          exact .inl ⟨hkey, hsame.trans hnone⟩
        · have hsame := hvalue fun heq => hlater g hg (hkey.trans heq.symm)
          exact .inr ⟨hkey, hsame.trans hnone⟩
      obtain ⟨e, hread, hstanza', hchildren', hfields', hname'⟩ :=
        ih (fun g hg => hfree g (List.mem_cons_of_mem f hg)) hnames.2 hrest
      refine ⟨e, hhead.trans hread, hstanza'.trans hstanza, hchildren'.trans hchildren, ?_, ?_⟩
      · rw [hfields', hfields]
        split <;> rfl
      · intro h
        rw [List.map_cons, List.mem_cons, not_or] at h
        exact (hname' h.2).trans (hname fun heq => h.1 heq.symm)

/-! ## Blocks as nodes -/

namespace Stanza

/-- A block of the catalog as a node, with its settings as fields. -/
def json (s : Stanza) (label : s.naming.Label) (settings : s.Settings) (inside : List Json) :
    Json :=
  .object (("stanza", .string s.keyword) :: (presentMember "name" .string (s.naming.label? label)
    ++ (Node.childrenMember inside ++ settings.present)))

theorem nodup_names (s : Stanza) : (s.fields.map Field.name).Nodup := by
  cases s <;> decide

/-- The fields of a block with the name of a shared member are texts.  None is called `name` if the
block may carry a name. -/
theorem shared_fields (s : Stanza) : ∀ f ∈ s.fields, f.name ∈ Node.sharedKeys →
    f.kind = .text ∧ (f.name = "name" ∧ s.naming = .unnamed ∨ f.name = "value") := by
  cases s <;> decide

theorem name_not_mem (s : Stanza) (h : s.naming ≠ .unnamed) :
    "name" ∉ s.fields.map Field.name := by
  revert h
  cases s <;> decide

theorem ofText?_keyword (s : Stanza) : Keyword.ofText? s.keyword = some (.block s) := by
  cases s <;> decide

end Stanza

/-- A block that carries no name does without the one that is given. -/
theorem Naming.ofName?_of (k : Naming) {label : k.Label} {name : Option String}
    (h : k ≠ .unnamed → name = k.label? label) : k.ofName? name = some label := by
  cases k with
  | unnamed => rfl
  | named => exact h nofun
  | nameable => exact congrArg some (h nofun)

namespace Stanza

/-- **A block that is sent as a node is decoded**, with its settings as they arrive. -/
theorem decode_json (s : Stanza) (label : s.naming.Label) (settings : s.Settings)
    {inside : List Json} {ns : List Node}
    (hinside : Node.decodeItems (Json.itemsReading inside) = .ok ns) :
    ∃ n : Node, Node.decode (s.json label settings inside).reading = .ok n ∧
      n.stanza = s.keyword ∧ n.children = ns ∧ n.label s = .ok label ∧
      n.settings s = .ok settings.received := by
  let named : NodeForm :=
    { stanza := some s.keyword
      name := (s.naming.label? label).map some
      children := if inside.isEmpty then none else some ns }
  have hsent : ∀ f ∈ s.fields, f.Sent named := by
    intro f hf hshared
    obtain ⟨htext, ⟨hname, hunnamed⟩ | hvalue⟩ := s.shared_fields f hf hshared
    · refine ⟨htext, .inl ⟨hname, ?_⟩⟩
      show (s.naming.label? label).map some = none
      revert label
      rw [hunnamed]
      exact fun _ => rfl
    · exact ⟨htext, .inr ⟨hvalue, rfl⟩⟩
  obtain ⟨e, hread, hstanza, hchildren, hfields, hname⟩ :=
    settings.decodeMembers_present s.not_mandatory s.nodup_names hsent
  have hform : Node.decode (s.json label settings inside).reading = e.finish := by
    show Node.decodeMembers {} (Json.membersReading _) = _
    rw [Node.decodeMembers_stanza rfl, Node.decodeMembers_name rfl,
      Node.decodeMembers_childrenMember rfl hinside]
    exact hread
  have hfinish : e.finish = .ok ⟨s.keyword, e.name.getD none, e.value.getD none,
      e.values.getD none, e.children.getD [], e.fields⟩ := by
    rw [NodeForm.finish, hstanza]
  refine ⟨_, hform.trans hfinish, rfl, ?_, ?_, ?_⟩
  · show e.children.getD [] = ns
    rw [hchildren]
    cases inside with
    | nil =>
      cases hinside
      rfl
    | cons j js => rfl
  · have hlabel : s.naming.ofName? (e.name.getD none) = some label := by
      refine s.naming.ofName?_of fun hnamed => ?_
      rw [hname (s.name_not_mem hnamed)]
      show ((s.naming.label? label).map some).getD none = _
      cases s.naming.label? label <;> rfl
    rw [Node.label, hlabel]
  · show (Record.decode _ _ (Json.object e.fields).reading).mapError _ = _
    rw [hfields, settings.decode_received s.nodup_names]
    rfl

end Stanza

namespace Node

variable {n : Node} {s : Stanza} (hword : Keyword.ofText? n.stanza = some (.block s))
include hword

/-- A node writes its block if the parts of the block are found. -/
theorem script_of_parts {label : s.naming.Label} {settings : s.Settings}
    (hparts : n.blockParts s = .ok (label, settings)) (registry : Registry) (driver : String) :
    n.script registry driver =
      s.write label settings (scripts registry (s.driverWithin settings driver) n.children) := by
  obtain ⟨stanza, name, value, values, children, fields⟩ := n
  unfold script
  simp only [hword, hparts]

theorem script_of_refusal {why : Refusal} (hparts : n.blockParts s = .error why)
    (registry : Registry) (driver : String) : n.script registry driver = [.fail why] := by
  obtain ⟨stanza, name, value, values, children, fields⟩ := n
  unfold script
  simp only [hword, hparts]

end Node

end JobFile
