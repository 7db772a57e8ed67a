import JobFile.Description.Decode
import JobFile.Proofs.Json.ReadsBack

/-!
# Reading the members of a node

* `Node.sharedKeys`            : the members that every node shares;
* `Node.decodeMembers_member`  : any member but the children fills in its part of the form;
* `Node.decodeMembers_stanza`, `Node.decodeMembers_name`, `Node.decodeMembers_value`,
  `Node.decodeMembers_values`, `Node.decodeMembers_childrenMember` : what the shared members fill in,
  if they are there;
* `Node.decodeMembers_unshared` : a member that is not shared is put among the fields.
-/

namespace JobFile

/-- The members that every node shares. -/
def Node.sharedKeys : List String := ["stanza", "name", "value", "values", "children"]

namespace NodeForm

theorem holds_of_not_mem {key : String} (h : key ∉ Node.sharedKeys) (d : NodeForm) :
    d.holds key = false := by
  simp only [Node.sharedKeys, List.mem_cons, List.not_mem_nil, or_false, not_or] at h
  obtain ⟨h1, h2, h3, h4, h5⟩ := h
  unfold holds
  split <;> first | rfl | contradiction

theorem fill_of_not_mem {key : String} (h : key ∉ Node.sharedKeys) (d : NodeForm) (r : Reading) :
    d.fill key r = r.decodeJson.map fun v => { d with fields := Json.insert key v d.fields } := by
  simp only [Node.sharedKeys, List.mem_cons, List.not_mem_nil, or_false, not_or] at h
  obtain ⟨h1, h2, h3, h4, h5⟩ := h
  unfold fill
  split
  case h_5 => cases r.decodeJson <;> rfl
  all_goals contradiction

end NodeForm

namespace Node

variable {d e : NodeForm}

/-- A member other than the children fills in its part of the form. -/
theorem decodeMembers_member {key : String} {v : Json} (hfree : d.holds key = false)
    (hkey : key ≠ "children") (hfill : d.fill key v.reading = .ok e)
    (ms : List (String × Json)) :
    decodeMembers d (Json.membersReading ((key, v) :: ms)) =
      decodeMembers e (Json.membersReading ms) := by
  rw [Json.membersReading, decodeMembers, hfree, if_neg Bool.false_ne_true, if_neg hkey, hfill]
  rfl

/-- A member that is not shared is put among the fields. -/
theorem decodeMembers_unshared {key : String} {value : Reading} {w : Json}
    (hkey : key ∉ sharedKeys) (hvalue : value.decodeJson = .ok w) (tail : Members) :
    decodeMembers d (.member (some key) value tail) =
      decodeMembers { d with fields := Json.insert key w d.fields } tail := by
  have hchildren : key ≠ "children" := by
    rintro rfl
    exact hkey (by decide)
  rw [decodeMembers, NodeForm.holds_of_not_mem hkey, if_neg Bool.false_ne_true, if_neg hchildren,
    NodeForm.fill_of_not_mem hkey, hvalue]
  rfl

theorem decodeMembers_field {key : String} {v w : Json} (hkey : key ∉ sharedKeys)
    (hv : v.reading.decodeJson = .ok w) (ms : List (String × Json)) :
    decodeMembers d (Json.membersReading ((key, v) :: ms)) =
      decodeMembers { d with fields := Json.insert key w d.fields } (Json.membersReading ms) :=
  decodeMembers_unshared hkey hv _

/-! ## Shared members -/

theorem decodeMembers_stanza (hfree : d.stanza = none) (s : String) (ms : List (String × Json)) :
    decodeMembers d (Json.membersReading (("stanza", .string s) :: ms)) =
      decodeMembers { d with stanza := some s } (Json.membersReading ms) :=
  decodeMembers_member (by simp [NodeForm.holds, hfree]) (by decide) rfl ms

theorem decodeMembers_name (hfree : d.name = none) (name : Option String)
    (ms : List (String × Json)) :
    decodeMembers d (Json.membersReading (presentMember "name" .string name ++ ms)) =
      decodeMembers { d with name := name.map some } (Json.membersReading ms) := by
  cases name with
  | none => simp only [presentMember, List.nil_append, Option.map_none, ← hfree]
  | some s => exact decodeMembers_member (by simp [NodeForm.holds, hfree]) (by decide) rfl ms

theorem decodeMembers_value (hfree : d.value = none) {value : Option Value}
    (h : ∀ v, value = some v → Value.decode v.json.reading = .ok v) (ms : List (String × Json)) :
    decodeMembers d (Json.membersReading (presentMember "value" Value.json value ++ ms)) =
      decodeMembers { d with value := value.map some } (Json.membersReading ms) := by
  cases value with
  | none => simp only [presentMember, List.nil_append, Option.map_none, ← hfree]
  | some v =>
    have hv : decodeOptional Value.decode v.json.reading = .ok (some v) :=
      decodeOptional_of_ok rfl (h v rfl)
    have hfill : d.fill "value" v.json.reading = .ok { d with value := some (some v) } := by
      simp only [NodeForm.fill, hv]
      rfl
    exact decodeMembers_member (by simp [NodeForm.holds, hfree]) (by decide) hfill ms

theorem decodeMembers_values (hfree : d.values = none) {values : Option (Entries Value)}
    (h : ∀ es, values = some es → Value.decodeEntries (Value.objectJson es).reading = .ok es)
    (ms : List (String × Json)) :
    decodeMembers d (Json.membersReading (presentMember "values" Value.objectJson values ++ ms)) =
      decodeMembers { d with values := values.map some } (Json.membersReading ms) := by
  cases values with
  | none => simp only [presentMember, List.nil_append, Option.map_none, ← hfree]
  | some es =>
    have hes : decodeOptional Value.decodeEntries (Value.objectJson es).reading = .ok (some es) :=
      decodeOptional_of_ok rfl (h es rfl)
    have hfill : d.fill "values" (Value.objectJson es).reading =
        .ok { d with values := some (some es) } := by
      simp only [NodeForm.fill, hes]
      rfl
    exact decodeMembers_member (by simp [NodeForm.holds, hfree]) (by decide) hfill ms

/-- The children as a member of a node.  It is left out if there are none. -/
def childrenMember : List Json → List (String × Json)
  | [] => []
  | j :: js => [("children", .array (j :: js))]

theorem decodeMembers_childrenMember {js : List Json} {ns : List Node} (hfree : d.children = none)
    (hjs : decodeItems (Json.itemsReading js) = .ok ns) (ms : List (String × Json)) :
    decodeMembers d (Json.membersReading (childrenMember js ++ ms)) =
      decodeMembers { d with children := if js.isEmpty then none else some ns }
        (Json.membersReading ms) := by
  cases js with
  | nil => simp only [childrenMember, List.nil_append, List.isEmpty_nil, if_true, ← hfree]
  | cons j js =>
    have hheld : d.holds "children" = false := by simp [NodeForm.holds, hfree]
    have hlist : decodeList (Json.array (j :: js)).reading = .ok ns := hjs
    rw [childrenMember, List.singleton_append, Json.membersReading, decodeMembers, hheld,
      if_neg Bool.false_ne_true, if_pos rfl, hlist]
    rfl

end Node

end JobFile
