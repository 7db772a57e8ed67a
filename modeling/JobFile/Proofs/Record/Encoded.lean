import Mathlib.Data.List.Nodup
import JobFile.Proofs.Description.Received

/-!
# Records are read from all their written forms

* `Record.Presents`            : the members of a record in any order, of which nulls may be left
  out;
* `Record.decode_presented`    : the record is decoded from them;
* `Record.values`              : what a record holds as JSON, in order;
* `Record.decodeItems_values`  : the record is decoded from these values, of which nulls at the end
  may be left off;
* `Stanza.settings_read_back`  : the settings of every block are read from their text in each of
  these forms.

A null stands for a field that is not set, and what stands for a field that is set is never a null.
This holds of a field of any kind, so the catalog only has to give its fields different names.
-/

namespace JobFile

/-! ## Depth -/

/-- No value of a kind needs more than one container. -/
theorem Kind.plain_json (depth : Nat) :
    ∀ (k : Kind) (v : k.Carrier), (k.json v).Plain (depth + 1)
  | .text, _ | .document, _ | .flag, _ => by simp [json, Json.Plain]
  | .integer, i => by
    obtain ⟨exact, hi⟩ := Json.ofInt_toInt i
    simp [json, hi, Json.Plain]
  | .texts, items => Json.plain_ofTexts depth items
  | .textMap, es => by
    refine Json.membersPlain_iff.2 fun m hm => ?_
    obtain ⟨e, -, rfl⟩ := List.mem_map.1 hm
    simp [Json.Plain]

theorem Field.plain_slotJson (f : Field) (slot : f.Slot) (depth : Nat) :
    (f.slotJson slot).Plain (depth + 1) := by
  cases hslot : slot.get? with
  | none =>
    rw [f.slotJson_of_none hslot]
    simp [Json.Plain]
  | some v =>
    rw [f.slotJson_of_some hslot]
    exact f.kind.plain_json depth v

namespace Record

variable {fs : List Field} {r : Record fs}

theorem plain_members (r : Record fs) (depth : Nat) : ∀ m ∈ r.members, m.2.Plain (depth + 1) := by
  induction r with
  | nil => nofun
  | @cons f fs slot rest ih =>
    rw [members_cons, List.forall_mem_cons]
    exact ⟨f.plain_slotJson slot depth, ih⟩

/-! ## Objects -/

/-- The members of a record in any order, of which nulls may be left out. -/
def Presents (r : Record fs) (ms : Entries Json) : Prop :=
  ∃ left : Entries Json, (ms ++ left).Perm r.members ∧ ∀ m ∈ left, m.2 = .null

/-- A record presents all its members. -/
theorem presents_members (r : Record fs) : r.Presents r.members :=
  ⟨[], by rw [List.append_nil], nofun⟩

theorem Presents.subset {ms : Entries Json} (h : r.Presents ms) : ms ⊆ r.members := by
  obtain ⟨left, hperm, -⟩ := h
  exact fun m hm => hperm.subset (List.mem_append_left left hm)

/-- **A record is decoded from its members in any order, of which nulls may be left out.** -/
theorem decode_presented (hnames : (fs.map Field.name).Nodup)
    (hr : r.All fun f => f.kind.Distinct) {ms : Entries Json} (h : r.Presents ms) (name : String) :
    Record.decode name fs (Json.object ms).reading = .ok r := by
  have hsub := h.subset
  obtain ⟨left, hperm, hleft⟩ := h
  have hkeys : (Entries.keys (ms ++ left)).Nodup := by
    rw [← keys_members r] at hnames
    exact (hperm.map Prod.fst).nodup_iff.2 hnames
  have hset : ∀ m ∈ r.members, m.2 ≠ .null → m.1 ∈ ms.keys := by
    intro m hm hnull
    rcases List.mem_append.1 (hperm.mem_iff.2 hm) with hm | hm
    · exact List.mem_map_of_mem hm
    · exact absurd (hleft m hm) hnull
  refine decode_members hnames ?_ (fun m hm => ?_) (within_of_members hset) name
  · exact hkeys.sublist ((List.sublist_append_left ms left).map Prod.fst)
  · exact reads_of_members hnames hr (hsub hm)

/-! ## Arrays -/

/-- What a record holds as JSON, in order. -/
def values (r : Record fs) : List Json := r.members.map Prod.snd

theorem values_cons {f : Field} (slot : f.Slot) (rest : Record fs) :
    (Record.cons slot rest).values = f.slotJson slot :: rest.values := rfl

/-- **A record is decoded from its values in order, of which nulls at the end may be left off.** -/
theorem decodeItems_values (hr : r.All fun f => f.kind.Distinct) {js : List Json} {left : Nat}
    (h : js ++ List.replicate left .null = r.values) (name : String) (size filled : Nat) :
    decodeItems name size fs filled (Json.itemsReading js) = .ok r := by
  induction r generalizing js left filled with
  | nil =>
    cases (List.append_eq_nil_iff.1 h).1
    rfl
  | @cons f fs slot rest ih =>
    rw [values_cons] at h
    cases js with
    | nil =>
      -- The array has ended, so this value and all that follow are null.
      cases left with
      | zero => cases h
      | succ left =>
        rw [List.nil_append, List.replicate_succ, List.cons.injEq] at h
        have hslot := Slot.unfilled?_of_get?_eq_none (f.slotJson_eq_null_iff.1 h.1.symm)
        have hnulls : [] ++ List.replicate left .null = rest.values := h.2
        have hrest := ih hr.2 hnulls (filled + 1)
        rw [Json.itemsReading] at hrest ⊢
        rw [decodeItems, hslot, hrest]
        rfl
    | cons j js =>
      rw [List.cons_append, List.cons.injEq] at h
      obtain ⟨rfl, h⟩ := h
      rw [Json.itemsReading, decodeItems, f.decode_slotJson hr.1, ih hr.2 h]
      rfl

end Record

/-! ## Settings -/

/-- Settings are read from the further members of a node that present them. -/
theorem Node.settings_of_presents (s : Stanza) {o : s.Settings}
    (ho : o.All fun f => f.kind.Distinct) {n : Node} (h : o.Presents n.fields) :
    n.settings s = .ok o := by
  rw [Node.settings, Record.decode_presented s.nodup_names ho h]
  rfl

/-- **The settings of a block are read back**: from their JSON form, from its members in any order,
from what the array of their values holds, and as the further members of a node.  Nulls may be left
out, in an array at its end. -/
theorem Stanza.settings_read_back (s : Stanza) (o : s.Settings)
    (ho : o.All fun f => f.kind.Distinct) :
    parse (Record.decode s.recordName s.fields) o.json.text = .ok o ∧
      (∀ ms, o.Presents ms →
        parse (Record.decode s.recordName s.fields) (Json.object ms).text = .ok o) ∧
      (∀ js left, js ++ List.replicate left .null = o.values →
        parse (Record.decode s.recordName s.fields) (Json.array js).text = .ok o) ∧
      ∀ n : Node, o.Presents n.fields → n.settings s = .ok o := by
  have hobject : ∀ ms, o.Presents ms →
      parse (Record.decode s.recordName s.fields) (Json.object ms).text = .ok o := by
    intro ms hms
    have hplain : (Json.object ms).Plain maxDepth :=
      Json.membersPlain_iff.2 fun m hm => o.plain_members _ m (hms.subset hm)
    rw [parse_text hplain]
    exact Record.decode_presented s.nodup_names ho hms s.recordName
  refine ⟨hobject _ o.presents_members, hobject, fun js left hjs => ?_, fun n hn => ?_⟩
  · have hplain : (Json.array js).Plain maxDepth := by
      refine Json.allPlain_iff.2 fun j hj => ?_
      have hvalue : j ∈ o.values := hjs ▸ List.mem_append_left _ hj
      obtain ⟨m, hm, rfl⟩ := List.mem_map.1 hvalue
      exact o.plain_members _ m hm
    rw [parse_text hplain]
    exact Record.decodeItems_values ho hjs s.recordName s.fields.length 0
  · exact Node.settings_of_presents s ho hn


namespace Stanza

/-- Settings with a text map in which the keys do not ascend. -/
def mirrored : artifact.Settings :=
  .cons (some "src") (.cons none (.cons none (.cons (some [("b", "1"), ("a", "2")]) .nil)))

/-- Their members in another order, without one of the nulls. -/
def mirroredMembers : Entries Json :=
  [("mode", .null), ("options", .object [("b", .string "1"), ("a", .string "2")]),
    ("source", .string "src")]

theorem presents_mirroredMembers : mirrored.Presents mirroredMembers :=
  ⟨[("destination", .null)],
    @List.perm_append_comm _ (mirroredMembers.take 2) (mirrored.members.take 2), by simp⟩

/-- Settings of which only the first is set. -/
def moved : ephemeralDisk.Settings := .cons (some true) (.cons none (.cons none .nil))

theorem settings_read_back_unordered :
    parse (Record.decode artifact.recordName artifact.fields)
        "\x7b\"mode\":null,\"options\":\x7b\"b\":\"1\",\"a\":\"2\"\x7d,\"source\":\"src\"\x7d" =
        .ok mirrored ∧
      Node.settings ⟨"artifact", none, none, none, [], mirroredMembers⟩ artifact = .ok mirrored ∧
      parse (Record.decode ephemeralDisk.recordName ephemeralDisk.fields)
        "\x7b\"migrate\":true,\"size\":null,\"sticky\":null\x7d" = .ok moved ∧
      parse (Record.decode ephemeralDisk.recordName ephemeralDisk.fields) "[true,null]" =
        .ok moved := by
  obtain ⟨-, hmembers, -, hnode⟩ := artifact.settings_read_back mirrored (by decide)
  obtain ⟨hjson, -, hvalues, -⟩ := ephemeralDisk.settings_read_back moved (by decide)
  have hmirrored : (Json.object mirroredMembers).text =
      "\x7b\"mode\":null,\"options\":\x7b\"b\":\"1\",\"a\":\"2\"\x7d,\"source\":\"src\"\x7d" := by
    cbv
  have hmoved : moved.json.text =
      "\x7b\"migrate\":true,\"size\":null,\"sticky\":null\x7d" := by cbv
  have hcut : (Json.array [.bool true, .null]).text = "[true,null]" := by cbv
  refine ⟨?_, hnode _ presents_mirroredMembers, ?_, ?_⟩
  · rw [← hmirrored]
    exact hmembers _ presents_mirroredMembers
  · rw [← hmoved]
    exact hjson
  · rw [← hcut]
    exact hvalues _ 1 rfl

end Stanza

end JobFile
