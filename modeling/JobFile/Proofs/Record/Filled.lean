import JobFile.Description.Basic
import JobFile.Proofs.Json.ReadsBack
import JobFile.Record.Decode

/-!
# Records decoded from their members

* `Kind.decode_json`      : a value of a kind is decoded from its JSON form;
* `Field.slotJson`        : what a field holds as JSON, null if it is not set;
* `Record.present`        : the fields that are set, as members of an object;
* `Record.All`            : a property of every value that is set;
* `Form.filledFrom`       : the form into which some fields of a record have been filled;
* `Form.fill_filledFrom`  : filling in one more field;
* `Record.decode_members` : a record is decoded from the members that it has set, in any order.
-/

namespace JobFile

/-! ## Values of a kind -/

namespace Reading

/-- Texts by key repeat no key, so they are decoded as they stand. -/
theorem decodeTextMembers_entries {es before : Entries String}
    (h : (Entries.keys (before ++ es)).Nodup) :
    decodeTextMembers before (Json.membersReading (es.map fun (k, s) => (k, .string s))) =
      .ok (before ++ es) := by
  induction es generalizing before with
  | nil =>
    rw [List.append_nil]
    rfl
  | cons e es ih =>
    obtain ⟨k, s⟩ := e
    have hnew : k ∉ before.keys := Entries.not_mem_of_nodup h
    rw [List.append_cons] at h ⊢
    show decodeTextMembers (before.put k s) _ = _
    rw [Entries.put_append hnew]
    exact ih h

theorem decodeTextItems_strings (items : List String) :
    decodeTextItems (Json.itemsReading (items.map .string)) = .ok items := by
  induction items with
  | nil => rfl
  | cons s items ih =>
    show (decodeTextItems (Json.itemsReading (items.map .string)) >>= _) = _
    rw [ih]
    rfl

end Reading

namespace Kind

/-- Can a value be decoded from its JSON form?  A text map must not repeat a key. -/
def Distinct : (k : Kind) → k.Carrier → Prop
  | .textMap, es => (Entries.keys es).Nodup
  | .text, _ | .document, _ | .integer, _ | .flag, _ | .texts, _ => True

instance : (k : Kind) → (v : k.Carrier) → Decidable (k.Distinct v)
  | .textMap, es => inferInstanceAs (Decidable (Entries.keys es).Nodup)
  | .text, _ | .document, _ | .integer, _ | .flag, _ | .texts, _ => isTrue trivial

/-- A value of a kind is decoded from its JSON form. -/
theorem decode_json : ∀ (k : Kind) (v : k.Carrier), k.Distinct v →
    k.decode (k.json v).reading = .ok v
  | .text, v, _ | .document, v, _ | .flag, v, _ => rfl
  | .integer, i, _ => by
    obtain ⟨exact, hi⟩ := Json.ofInt_toInt i
    have hhigh : i.toInt < 0x8000000000000000 := i.toInt_lt
    show Reading.decodeInteger (Json.ofInt i.toInt).reading = _
    rw [hi]
    simp [Json.reading, Reading.decodeInteger, hhigh]
  | .texts, items, _ => Reading.decodeTextItems_strings items
  | .textMap, es, h => by
    have hes : (Entries.keys ([] ++ es)).Nodup := h
    exact Reading.decodeTextMembers_entries hes

theorem decode_null (k : Kind) : ∃ why, k.decode .null = .error why := by
  cases k <;> exact ⟨_, rfl⟩

theorem json_ne_null (k : Kind) (v : k.Carrier) : k.json v ≠ .null := by
  cases k <;> nofun

end Kind

namespace Slot

variable {α : Type} {mandatory : Bool} {slot : Slot mandatory α}

/-- A field in which nothing is set may be left out. -/
theorem unfilled?_of_get?_eq_none (h : slot.get? = none) :
    Slot.unfilled? mandatory = some slot := by
  cases mandatory with
  | true => cases h
  | false =>
    cases (h : slot = none)
    rfl

theorem decode_null_of_get?_eq_none (decode : Reading → Except ReadError α)
    (h : slot.get? = none) : Slot.decode decode mandatory .null = .ok slot := by
  cases mandatory with
  | true => cases h
  | false =>
    cases (h : slot = none)
    rfl

end Slot

/-- What is set in a field is decoded from its JSON form. -/
theorem Field.decode_json (f : Field) {slot : f.Slot} {v : f.kind.Carrier}
    (hslot : slot.get? = some v) (hv : f.kind.Distinct v) :
    f.decode (f.kind.json v).reading = .ok slot := by
  have hdecode := f.kind.decode_json v hv
  obtain ⟨name, kind, mandatory, required, fallback, choices⟩ := f
  cases mandatory with
  | true =>
    cases hslot
    exact hdecode
  | false =>
    obtain ⟨why, hnull⟩ := kind.decode_null
    cases (hslot : slot = some v)
    exact decodeOptional_of_ok hnull hdecode

namespace Field

variable (f : Field) {slot : f.Slot}

/-- What a field holds as JSON, null if it is not set. -/
def slotJson (slot : f.Slot) : Json := (slot.get?.map f.kind.json).getD .null

theorem slotJson_of_some {v : f.kind.Carrier} (h : slot.get? = some v) :
    f.slotJson slot = f.kind.json v := by
  simp [slotJson, h]

theorem slotJson_of_none (h : slot.get? = none) : f.slotJson slot = .null := by
  simp [slotJson, h]

theorem slotJson_eq_null_iff : f.slotJson slot = .null ↔ slot.get? = none := by
  cases hslot : slot.get? with
  | none => simp [f.slotJson_of_none hslot]
  | some v => simp [f.slotJson_of_some hslot, f.kind.json_ne_null]

/-- What a field holds is decoded from its JSON form, a null as nothing. -/
theorem decode_slotJson (h : ∀ v ∈ slot.get?, f.kind.Distinct v) :
    f.decode (f.slotJson slot).reading = .ok slot := by
  cases hslot : slot.get? with
  | none =>
    rw [f.slotJson_of_none hslot]
    exact Slot.decode_null_of_get?_eq_none f.kind.decode hslot
  | some v =>
    rw [f.slotJson_of_some hslot]
    exact f.decode_json hslot (h v hslot)

end Field

/-! ## Fields as members -/

namespace Record

/-- The fields that are set, as members of an object. -/
def present : {fs : List Field} → Record fs → List (String × Json)
  | [], .nil => []
  | f :: _, .cons slot rest => presentMember f.name f.kind.json slot.get? ++ rest.present

/-- Does something hold of every value that is set? -/
def All (P : (f : Field) → f.kind.Carrier → Prop) : {fs : List Field} → Record fs → Prop
  | [], .nil => True
  | f :: _, .cons slot rest => (∀ v ∈ slot.get?, P f v) ∧ rest.All P

instance decidableAll (P : (f : Field) → f.kind.Carrier → Prop) [∀ f v, Decidable (P f v)] :
    {fs : List Field} → (r : Record fs) → Decidable (r.All P)
  | [], .nil => isTrue trivial
  | f :: _, .cons slot rest =>
    have := decidableAll P rest
    inferInstanceAs (Decidable ((∀ v ∈ slot.get?, P f v) ∧ rest.All P))

/-- Is the value of a field decoded from a JSON form? -/
def Reads (key : String) (j : Json) : {fs : List Field} → Record fs → Prop
  | [], .nil => False
  | f :: _, .cons slot rest =>
    if f.name = key then f.decode j.reading = .ok slot else rest.Reads key j

/-- Has every field that is set one of the names, and may all others be left out? -/
def Within (keys : List String) : {fs : List Field} → Record fs → Prop
  | [], .nil => True
  | f :: _, .cons slot rest =>
    (f.name ∈ keys ∨ Slot.unfilled? f.mandatory = some slot) ∧ rest.Within keys

theorem Within.mono {keys keys' : List String} (hsub : ∀ k ∈ keys, k ∈ keys') {fs : List Field}
    {r : Record fs} (h : r.Within keys) : r.Within keys' := by
  induction r with
  | nil => trivial
  | cons slot rest ih => exact ⟨h.1.imp (hsub _) id, ih h.2⟩

theorem members_cons {f : Field} {fs : List Field} (slot : f.Slot) (rest : Record fs) :
    (Record.cons slot rest).members = (f.name, f.slotJson slot) :: rest.members := rfl

/-- Every field is a member, in order. -/
theorem keys_members {fs : List Field} (r : Record fs) :
    Entries.keys r.members = fs.map Field.name := by
  induction r with
  | nil => rfl
  | cons slot rest ih => simpa [members_cons, Entries.keys] using ih

/-- Every member is decoded as its field. -/
theorem reads_of_members {fs : List Field} {r : Record fs} (hnames : (fs.map Field.name).Nodup)
    (hr : r.All fun f => f.kind.Distinct) {key : String} {j : Json} (h : (key, j) ∈ r.members) :
    r.Reads key j := by
  induction r with
  | nil => cases h
  | @cons f fs slot rest ih =>
    rw [List.map_cons, List.nodup_cons] at hnames
    rw [members_cons, List.mem_cons] at h
    rw [Reads]
    rcases h with heq | h
    · cases heq
      rw [if_pos rfl]
      exact f.decode_slotJson hr.1
    · have hne : f.name ≠ key := by
        rintro rfl
        apply hnames.1
        rw [← rest.keys_members]
        exact List.mem_map_of_mem h
      rw [if_neg hne]
      exact ih hnames.2 hr.2 h

/-- A field may be left out if its member is null. -/
theorem within_of_members {fs : List Field} {r : Record fs} {keys : List String}
    (h : ∀ m ∈ r.members, m.2 ≠ .null → m.1 ∈ keys) : r.Within keys := by
  induction r with
  | nil => trivial
  | @cons f fs slot rest ih =>
    rw [members_cons, List.forall_mem_cons] at h
    refine ⟨?_, ih h.2⟩
    by_cases hnull : f.slotJson slot = .null
    · exact .inr (Slot.unfilled?_of_get?_eq_none (f.slotJson_eq_null_iff.1 hnull))
    · exact .inl (h.1 hnull)

/-- The members that are present are those that are not null. -/
theorem mem_present_iff {fs : List Field} {r : Record fs} {m : String × Json} :
    m ∈ r.present ↔ m ∈ r.members ∧ m.2 ≠ .null := by
  induction r with
  | nil => simp [present, members]
  | @cons f fs slot rest ih =>
    rw [present, members_cons, List.mem_append, List.mem_cons, or_and_right, ih]
    refine or_congr_left ?_
    cases hslot : slot.get? with
    | none =>
      simp only [presentMember, f.slotJson_of_none hslot, List.not_mem_nil, false_iff]
      rintro ⟨rfl, hnull⟩
      exact hnull rfl
    | some v =>
      simp only [presentMember, f.slotJson_of_some hslot, List.mem_singleton]
      constructor
      · rintro rfl
        exact ⟨rfl, f.kind.json_ne_null v⟩
      · exact And.left

/-- Every member that is present is decoded as its field. -/
theorem reads_of_present {fs : List Field} {r : Record fs} (hnames : (fs.map Field.name).Nodup)
    (hr : r.All fun f => f.kind.Distinct) {key : String} {j : Json} (h : (key, j) ∈ r.present) :
    r.Reads key j :=
  reads_of_members hnames hr (mem_present_iff.1 h).1

/-- What is not present may be left out. -/
theorem within_present {fs : List Field} (r : Record fs) :
    r.Within (Entries.keys r.present) :=
  within_of_members fun _ hm hnull => List.mem_map_of_mem (mem_present_iff.2 ⟨hm, hnull⟩)

end Record

/-! ## Forms filled from a record -/

namespace Form

/-- The form into which the fields of a record with the given names have been filled. -/
def filledFrom (keys : List String) : {fs : List Field} → Record fs → Form fs
  | [], .nil => .nil
  | f :: _, .cons slot rest =>
    .cons (if f.name ∈ keys then some slot else none) (filledFrom keys rest)

variable {fs : List Field}

theorem filledFrom_nil (r : Record fs) : filledFrom [] r = blank fs := by
  induction r with
  | nil => rfl
  | cons slot rest ih => simp [filledFrom, blank, ih]

theorem filledFrom_cons_of_not_mem {r : Record fs} {key : String} (keys : List String)
    (h : key ∉ fs.map Field.name) : filledFrom (key :: keys) r = filledFrom keys r := by
  induction r with
  | nil => rfl
  | @cons f fs slot rest ih =>
    rw [List.map_cons, List.mem_cons, not_or] at h
    have hne : ¬f.name = key := fun heq => h.1 heq.symm
    simp only [filledFrom, ih h.2, List.mem_cons, hne, false_or]

theorem fill_of_ne {f : Field} {key : String} (hne : ¬f.name = key) (filled : Option f.Slot)
    (rest : Form fs) (known : List String) (value : Reading) :
    (cons filled rest).fill known key value = (rest.fill known key value).map (cons filled) := by
  cases filled <;> simp only [fill, if_neg hne]

/-- Filling in a field that has not been filled in. -/
theorem fill_filledFrom {r : Record fs} (hnames : (fs.map Field.name).Nodup)
    {key : String} {j : Json} {keys : List String} (h : r.Reads key j) (hnew : key ∉ keys)
    (known : List String) :
    (filledFrom keys r).fill known key j.reading = .ok (filledFrom (key :: keys) r) := by
  induction r with
  | nil => exact h.elim
  | @cons f fs slot rest ih =>
    rw [List.map_cons, List.nodup_cons] at hnames
    rw [Record.Reads] at h
    by_cases hkey : f.name = key
    · subst hkey
      rw [if_pos rfl] at h
      have hrest := filledFrom_cons_of_not_mem (r := rest) keys hnames.1
      simp only [filledFrom, fill, if_neg hnew, if_pos List.mem_cons_self, hrest, h, if_true]
      rfl
    · rw [if_neg hkey] at h
      have hmem : f.name ∈ key :: keys ↔ f.name ∈ keys := by simp [hkey]
      rw [filledFrom, filledFrom, fill_of_ne hkey, ih hnames.2 h]
      simp only [hmem]
      rfl

/-- A form holds its record once every field that must be there has been filled in. -/
theorem finish_filledFrom {r : Record fs} {keys : List String} (h : r.Within keys) :
    (filledFrom keys r).finish = .ok r := by
  induction r with
  | nil => rfl
  | @cons f fs slot rest ih =>
    have hslot : ((if f.name ∈ keys then some slot else none) <|> Slot.unfilled? f.mandatory) =
        some slot := by
      split
      · rfl
      · rename_i hnot
        exact h.1.resolve_left hnot
    rw [filledFrom, finish, hslot, ih h.2]
    rfl

/-- Members with distinct keys fill in the rest of a form. -/
theorem fillAll_filledFrom {r : Record fs} (hnames : (fs.map Field.name).Nodup)
    {ms : Entries Json} {keys : List String} (hkeys : (keys ++ ms.keys).Nodup)
    (hreads : ∀ m ∈ ms, r.Reads m.1 m.2) (hwithin : r.Within (keys ++ ms.keys))
    (known : List String) :
    (filledFrom keys r).fillAll known (Json.membersReading ms) = .ok r := by
  induction ms generalizing keys with
  | nil => exact finish_filledFrom (by simpa [Entries.keys] using hwithin)
  | cons m ms ih =>
    obtain ⟨key, j⟩ := m
    have hnew : key ∉ keys := fun hk =>
      (List.nodup_append.1 hkeys).2.2 key hk key List.mem_cons_self rfl
    have hperm : (keys ++ key :: Entries.keys ms).Perm ((key :: keys) ++ Entries.keys ms) :=
      List.perm_middle
    rw [Json.membersReading, fillAll, fill_filledFrom hnames (hreads _ List.mem_cons_self) hnew]
    exact ih (hperm.nodup_iff.1 hkeys) (fun m hm => hreads m (List.mem_cons_of_mem _ hm))
      (hwithin.mono fun k hk => hperm.mem_iff.1 hk)

end Form

/-- **A record is decoded from the members that it has set**, in whatever order they stand. -/
theorem Record.decode_members {fs : List Field} {r : Record fs}
    (hnames : (fs.map Field.name).Nodup) {ms : Entries Json} (hkeys : ms.keys.Nodup)
    (hreads : ∀ m ∈ ms, r.Reads m.1 m.2) (hwithin : r.Within ms.keys) (name : String) :
    Record.decode name fs (Json.object ms).reading = .ok r := by
  have hblank := Form.filledFrom_nil r
  show (Form.blank fs).fillAll (fs.map Field.name) (Json.membersReading ms) = _
  rw [← hblank]
  exact Form.fillAll_filledFrom hnames hkeys hreads hwithin _

end JobFile
