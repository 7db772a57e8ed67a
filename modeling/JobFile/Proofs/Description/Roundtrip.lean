import Mathlib
import JobFile.Description.Render
import JobFile.Proofs.Description.Members
import JobFile.Proofs.Value.Denoted

/-!
# Described forms are read back

* `Node.Sound`             : the parts of a node are read back, and none of its fields is taken for
  one of them;
* `Node.Sound.readsBack`   : a node of which this holds is read back;
* `Node.readsBack_of_decode` : so is every node that has been decoded;
* `Description.readsBack_of_decode` : and every description;
* `Description.describe`   : the described form of a text;
* `Description.describe_roundtrip` : it is read as the same description, is its own described form
  and is rendered in the same way.
-/

namespace JobFile

namespace Node

/-- The JSON form of nodes. -/
def listJson (ns : List Node) : Json := .array (allJson ns)

/-- The parts of a node are read back, and none of its fields is taken for one of them. -/
structure Sound (depth : Nat) (n : Node) : Prop where
  value : ∀ v, n.value = some v → ReadsBack Value.decode Value.json depth v
  values : ∀ es, n.values = some es → ReadsBack Value.decodeEntries Value.objectJson depth es
  children : n.children ≠ [] → ReadsBack decodeList listJson depth n.children
  ascending : Entries.Ascending n.fields
  fields : ∀ e ∈ n.fields, ReadsBack Reading.decodeJson id depth e.2
  unshared : ∀ e ∈ n.fields, e.1 ∉ sharedKeys

variable {depth : Nat}

/-- The JSON form of a node, member by member. -/
theorem json_eq (n : Node) :
    n.json = .object (("stanza", .string n.stanza) :: (presentMember "name" .string n.name
      ++ (presentMember "value" Value.json n.value
      ++ (presentMember "values" Value.objectJson n.values
      ++ (childrenMember (allJson n.children) ++ n.fields))))) := by
  obtain ⟨stanza, name, value, values, children, fields⟩ := n
  have hvalues : (fun es => Json.object (Value.entriesJson es)) = Value.objectJson := rfl
  cases children <;> simp [json, childrenMember, allJson, hvalues]

/-- Fields that are read back are put in place one after the other. -/
theorem decodeMembers_fields {d : NodeForm} {fields : Entries Json}
    (hback : ∀ e ∈ fields, ReadsBack Reading.decodeJson id depth e.2)
    (hkeys : ∀ e ∈ fields, e.1 ∉ sharedKeys) :
    decodeMembers d (Json.membersReading fields) =
      NodeForm.finish { d with fields := Json.insertAll d.fields fields } := by
  induction fields generalizing d with
  | nil => rfl
  | cons e fields ih =>
    obtain ⟨k, v⟩ := e
    have hv : v.reading.decodeJson = .ok v := (hback (k, v) List.mem_cons_self).decoded
    rw [decodeMembers_field (hkeys (k, v) List.mem_cons_self) hv]
    exact ih (fun e he => hback e (List.mem_cons_of_mem _ he))
      fun e he => hkeys e (List.mem_cons_of_mem _ he)

theorem plain_presentMember {α : Type} {key : String} {json : α → Json} {part : Option α}
    (h : ∀ a, part = some a → (json a).Plain depth) :
    ∀ m ∈ presentMember key json part, m.2.Plain depth := by
  cases part with
  | none => exact nofun
  | some a =>
    intro m hm
    rw [List.mem_singleton.1 hm]
    exact h a rfl

theorem plain_childrenMember {js : List Json} (h : js ≠ [] → Json.Plain depth (.array js)) :
    ∀ m ∈ childrenMember js, m.2.Plain depth := by
  cases js with
  | nil => exact nofun
  | cons j js =>
    intro m hm
    rw [List.mem_singleton.1 hm]
    exact h (List.cons_ne_nil j js)

/-- The children of a node are read back one after the other. -/
theorem Sound.decodeItems {n : Node} (h : n.Sound depth) :
    decodeItems (Json.itemsReading (allJson n.children)) = .ok n.children := by
  cases hn : n.children with
  | nil => rfl
  | cons c cs =>
    rw [← hn]
    exact (h.children (by simp [hn])).decoded

/-- A node whose parts are read back is read back. -/
theorem Sound.readsBack {n : Node} (h : n.Sound depth) :
    ReadsBack decode json (depth + 1) n where
  plain := by
    rw [json_eq]
    refine Json.membersPlain_iff.2 ?_
    simp only [List.forall_mem_cons, List.forall_mem_append]
    refine ⟨by simp [Json.Plain], ?_, ?_, ?_, ?_, fun e he => (h.fields e he).plain⟩
    · exact plain_presentMember fun s _ => by simp [Json.Plain]
    · exact plain_presentMember fun v hv => (h.value v hv).plain
    · exact plain_presentMember fun es hes => (h.values es hes).plain
    · refine plain_childrenMember fun hne => (h.children ?_).plain
      intro hnone
      exact hne (by rw [hnone]; rfl)
  decoded := by
    have hfields : Json.insertAll [] n.fields = n.fields :=
      Json.insertAll_of_ascending (by exact h.ascending)
    rw [json_eq]
    show decodeMembers {} (Json.membersReading _) = _
    rw [decodeMembers_stanza rfl, decodeMembers_name rfl,
      decodeMembers_value rfl fun v hv => (h.value v hv).decoded,
      decodeMembers_values rfl fun es hes => (h.values es hes).decoded,
      decodeMembers_childrenMember rfl h.decodeItems,
      decodeMembers_fields h.fields h.unshared, hfields]
    obtain ⟨stanza, name, value, values, children, fields⟩ := n
    cases name <;> cases value <;> cases values <;> cases children <;> rfl

/-! ## Decoded nodes -/

/-- The parts of a form are read back. -/
def FormSound (depth : Nat) (d : NodeForm) : Prop :=
  Sound depth ⟨d.stanza.getD "", d.name.getD none, d.value.getD none, d.values.getD none,
    d.children.getD [], d.fields⟩

theorem formSound_blank : FormSound depth {} where
  value := nofun
  values := nofun
  children h := absurd rfl h
  ascending := List.Pairwise.nil
  fields := nofun
  unshared := nofun

/-- A finished form is a node of which the parts are read back. -/
theorem FormSound.finish {d : NodeForm} (hd : FormSound depth d) {n : Node}
    (h : d.finish = .ok n) : n.Sound depth := by
  unfold NodeForm.finish at h
  split at h
  · cases h
    exact { hd with }
  · cases h

/-- Filling in a member keeps the parts of a form sound. -/
theorem FormSound.fill {d e : NodeForm} (hd : FormSound depth d) {key : String} {r : Reading}
    (hkey : key ≠ "children") (hexact : r.isExact = true)
    (h : d.fill key (r.limit depth) = .ok e) : FormSound depth e := by
  unfold NodeForm.fill at h
  split at h
  case h_1 =>
    obtain ⟨s, -, heq⟩ := ok_of_bind h
    cases heq
    exact { hd with }
  case h_2 =>
    obtain ⟨name, -, heq⟩ := ok_of_bind h
    cases heq
    exact { hd with }
  case h_3 =>
    obtain ⟨value, hvalue, heq⟩ := ok_of_bind h
    cases heq
    refine { hd with value := fun v hv => ?_ }
    cases (hv : value = some v)
    exact Value.readsBack_of_decode hexact (ok_of_decodeOptional hvalue)
  case h_4 =>
    obtain ⟨values, hvalues, heq⟩ := ok_of_bind h
    cases heq
    refine { hd with values := fun es hes => ?_ }
    cases (hes : values = some es)
    exact Value.readsBack_of_decodeEntries hexact (ok_of_decodeOptional hvalues)
  case h_5 hstanza hname hvalue hvalues =>
    obtain ⟨v, hv, heq⟩ := ok_of_bind h
    cases heq
    have hnew := Reading.readsBack_of_decodeJson r depth v hexact hv
    refine { hd with
      ascending := Json.ascending_insert key v hd.ascending, fields := ?_, unshared := ?_ }
    · intro f hf
      rcases Json.mem_insert key v hf with rfl | hf
      · exact hnew
      · exact hd.fields f hf
    · intro f hf
      rcases Json.mem_insert key v hf with rfl | hf
      · simpa [sharedKeys, hkey] using ⟨hstanza, hname, hvalue, hvalues⟩
      · exact hd.unshared f hf

/-- Nodes that are read back one by one are read back as a list. -/
theorem readsBack_list {ns : List Node} (h : ∀ n ∈ ns, ReadsBack decode json depth n) :
    ReadsBack decodeList listJson (depth + 1) ns := by
  have hboth : Json.AllPlain depth (allJson ns) ∧
      decodeItems (Json.itemsReading (allJson ns)) = .ok ns := by
    induction ns with
    | nil => exact ⟨trivial, rfl⟩
    | cons n ns ih =>
      have hn := h n List.mem_cons_self
      obtain ⟨hplain, hns⟩ := ih fun m hm => h m (List.mem_cons_of_mem n hm)
      refine ⟨⟨hn.plain, hplain⟩, ?_⟩
      rw [allJson, Json.itemsReading, decodeItems, hn.decoded, hns]
      rfl
  exact ⟨hboth.1, hboth.2⟩

mutual
/-- **A decoded node is read back.** -/
theorem readsBack_of_decode : ∀ (r : Reading) (depth : Nat) (n : Node), r.isExact = true →
    decode (r.limit depth) = .ok n → ReadsBack decode json depth n
  | .object members => by
    intro depth n hexact h
    cases depth with
    | zero => cases h
    | succ depth =>
      exact (sound_of_decodeMembers members depth {} n hexact formSound_blank h).readsBack
  | .null | .bool _ | .number _ | .string _ | .array _ | .meaningless | .broken => by
    intro depth n _ h
    cases depth <;> cases h
/-- The members that are left keep the parts of a node sound. -/
theorem sound_of_decodeMembers : ∀ (members : Members) (depth : Nat) (d : NodeForm) (n : Node),
    members.isExact = true → FormSound depth d →
    decodeMembers d (members.limit depth) = .ok n → n.Sound depth
  | .close => by
    intro depth d n _ hd h
    exact hd.finish h
  | .broken => by
    intro depth d n _ _ h
    cases h
  | .member none value tail => by
    intro depth d n _ _ h
    cases h
  | .member (some key) value tail => by
    intro depth d n hexact hd h
    obtain ⟨hvalue, htail⟩ := Bool.and_eq_true_iff.1 hexact
    rw [Members.limit, decodeMembers] at h
    split at h
    · cases h
    · split at h
      · obtain ⟨ns, hns, hrest⟩ := ok_of_bind h
        have hback := readsBack_of_decodeList value depth ns hvalue hns
        exact sound_of_decodeMembers tail depth { d with children := some ns } n htail
          { hd with children := fun _ => hback } hrest
      · rename_i hkey
        obtain ⟨e, he, hrest⟩ := ok_of_bind h
        exact sound_of_decodeMembers tail depth e n htail (hd.fill hkey hvalue he) hrest
theorem readsBack_of_decodeList : ∀ (r : Reading) (depth : Nat) (ns : List Node),
    r.isExact = true → decodeList (r.limit depth) = .ok ns →
    ReadsBack decodeList listJson depth ns
  | .array items => by
    intro depth ns hexact h
    cases depth with
    | zero => cases h
    | succ depth => exact readsBack_list (readsBack_of_decodeItems items depth ns hexact h)
  | .null | .bool _ | .number _ | .string _ | .object _ | .meaningless | .broken => by
    intro depth ns _ h
    cases depth <;> cases h
theorem readsBack_of_decodeItems : ∀ (items : Items) (depth : Nat) (ns : List Node),
    items.isExact = true → decodeItems (items.limit depth) = .ok ns →
    ∀ n ∈ ns, ReadsBack decode json depth n
  | .close => by
    intro depth ns _ h
    cases h
    exact nofun
  | .broken => by
    intro depth ns _ h
    cases h
  | .item head tail => by
    intro depth ns hexact h
    obtain ⟨hhead, htail⟩ := Bool.and_eq_true_iff.1 hexact
    obtain ⟨n, hn, hrest⟩ := ok_of_bind h
    obtain ⟨ms, hms, heq⟩ := ok_of_bind hrest
    cases heq
    refine List.forall_mem_cons.2 ⟨?_, ?_⟩
    · exact readsBack_of_decode head depth n hhead hn
    · exact readsBack_of_decodeItems tail depth ms htail hms
end

end Node

/-! ## Descriptions -/

namespace Description

variable {depth : Nat}

/-- A description whose stanzas are read back is read back. -/
theorem readsBack {d : Description}
    (h : ReadsBack Node.decodeList Node.listJson (depth + 1) d.stanzas) :
    ReadsBack decode json (depth + 2) d where
  plain := ⟨by simp [Json.Plain], h.plain, trivial⟩
  decoded := by
    have hstanzas : Node.decodeList (Json.array (Node.allJson d.stanzas)).reading =
        .ok d.stanzas := h.decoded
    show decodeMembers none none (Json.membersReading
      [("job", .string d.job), ("stanzas", .array (Node.allJson d.stanzas))]) = _
    simp only [Json.membersReading, decodeMembers, hstanzas]
    rfl

/-- No stanzas at all are read back. -/
theorem readsBack_nil : ReadsBack Node.decodeList Node.listJson (depth + 1) [] :=
  Node.readsBack_list nofun

theorem stanzas_of_decodeMembers : ∀ (members : Members) (job : Option String)
    (stanzas : Option (List Node)) (d : Description), members.isExact = true →
    (∀ ns, stanzas = some ns → ReadsBack Node.decodeList Node.listJson (depth + 1) ns) →
    decodeMembers job stanzas (members.limit (depth + 1)) = .ok d →
    ReadsBack Node.decodeList Node.listJson (depth + 1) d.stanzas
  | .close => by
    intro job stanzas d _ hback h
    cases job with
    | none => cases h
    | some job =>
      cases h
      cases stanzas with
      | none => exact readsBack_nil
      | some ns => exact hback ns rfl
  | .broken => by
    intro job stanzas d _ _ h
    cases h
  | .member none value tail => by
    intro job stanzas d _ _ h
    cases h
  | .member (some key) value tail => by
    intro job stanzas d hexact hback h
    obtain ⟨hvalue, htail⟩ := Bool.and_eq_true_iff.1 hexact
    rw [Members.limit] at h
    unfold decodeMembers at h
    split at h
    case h_1 heq | h_2 heq | h_3 heq => cases heq
    case h_4 heq =>
      cases heq
      split at h
      · cases h
      · obtain ⟨text, -, hrest⟩ := ok_of_bind h
        exact stanzas_of_decodeMembers tail _ stanzas d htail hback hrest
    case h_5 heq =>
      cases heq
      split at h
      · cases h
      · obtain ⟨ns, hns, hrest⟩ := ok_of_bind h
        refine stanzas_of_decodeMembers tail job _ d htail (fun ms hms => ?_) hrest
        cases hms
        exact Node.readsBack_of_decodeList value (depth + 1) ns hvalue hns
    case h_6 => cases h

/-- **A decoded description is read back**, whether it was written as an object or as an array. -/
theorem readsBack_of_decode {r : Reading} {d : Description} (hexact : r.isExact = true)
    (h : decode (r.limit (depth + 2)) = .ok d) : ReadsBack decode json (depth + 2) d := by
  cases r with
  | object members =>
    exact readsBack (stanzas_of_decodeMembers members none none d hexact nofun h)
  | array items =>
    refine readsBack ?_
    match items with
    | .close | .broken => cases h
    | .item job tail =>
      obtain ⟨text, -, hrest⟩ := ok_of_bind h
      match tail with
      | .close =>
        cases hrest
        exact readsBack_nil
      | .broken => cases hrest
      | .item stanzas rest =>
        obtain ⟨ns, hns, hend⟩ := ok_of_bind hrest
        have hstanzas : stanzas.isExact = true :=
          (Bool.and_eq_true_iff.1 (Bool.and_eq_true_iff.1 hexact).2).1
        have hd : d.stanzas = ns := by
          match rest with
          | .close =>
            cases hend
            rfl
          | .broken | .item _ _ => cases hend
        rw [hd]
        exact Node.readsBack_of_decodeList stanzas (depth + 1) ns hstanzas hns
  | _ => cases h

/-- The described form of a text. -/
def describe (s : String) : Except ReadError String := (parse s).map fun d => d.json.text

/-- What a text is rendered as, once it has been read. -/
def rendered (registry : Registry) (s : String) : Except ReadError (Except Failure String) :=
  (parse s).map (render registry)

/-- **A described form is read as the description that it was made from.**  It is therefore its own
described form, and is rendered as the text was. -/
theorem describe_roundtrip {s : String} {d : Description}
    (hexact : (Reading.ofText s).1.isExact = true) (h : parse s = .ok d) :
    parse d.json.text = .ok d ∧ describe d.json.text = describe s ∧
      ∀ registry, rendered registry d.json.text = rendered registry s := by
  have hparse : parse d.json.text = .ok d :=
    (readsBack_of_decode hexact (ok_of_parse h)).parse
  refine ⟨hparse, ?_, fun registry => ?_⟩
  · rw [describe, describe, hparse, h]
  · rw [rendered, rendered, hparse, h]

/-- A text whose members stand in no order, with an integer that becomes a text. -/
def unsorted : String :=
  "\x7b\"stanzas\":[\x7b\"w\":2,\"stanza\":\"meta\",\"a\":1,"
    ++ "\"values\":\x7b\"k\":9223372036854775808\x7d\x7d],\"job\":\"j\"\x7d"

/-- What this text holds. -/
def unsortedReading : Reading :=
  let node : Members := .member (some "w") (.number (.integer 2 (by decide)))
    (.member (some "stanza") (.string "meta") (.member (some "a") (.number (.integer 1 (by decide)))
      (.member (some "values") (.object (.member (some "k")
        (.number (.integer 0x8000000000000000 (by decide))) .close)) .close)))
  .object (.member (some "stanzas") (.array (.item (.object node) .close))
    (.member (some "job") (.string "j") .close))

/-- The description that it is read as. -/
def unsortedDescription : Description :=
  ⟨"j", [{ stanza := "meta"
           values := some [("k", .text "9223372036854775808")]
           fields := [("a", .ofInt 1), ("w", .ofInt 2)] }]⟩

theorem ofText_unsorted : Reading.ofText unsorted = (unsortedReading, true) := by cbv

theorem describe_roundtrip_unsorted :
    (Reading.ofText unsorted).1.isExact = true ∧ parse unsorted = .ok unsortedDescription ∧
      parse unsortedDescription.json.text = .ok unsortedDescription ∧
      describe unsortedDescription.json.text = describe unsorted ∧
      ∀ registry, rendered registry unsortedDescription.json.text = rendered registry unsorted := by
  have hexact : (Reading.ofText unsorted).1.isExact = true := by
    rw [ofText_unsorted]
    rfl
  have hparse : parse unsorted = .ok unsortedDescription := by
    rw [parse, JobFile.parse, ofText_unsorted]
    rfl
  exact ⟨hexact, hparse, describe_roundtrip hexact hparse⟩

end Description

end JobFile
