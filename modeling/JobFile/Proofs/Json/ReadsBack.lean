import JobFile.Json.Decode
import JobFile.Proofs.Json.Members
import JobFile.Proofs.Json.Printed
import JobFile.Proofs.Layout.Balance
import JobFile.Value.Decode

/-!
# Decoded values are read back

* `Reading.isExact`  : no number of a text is a double;
* `ReadsBack`        : the JSON form of a value is decoded to this value;
* `parse_text`, `ReadsBack.parse` : then its text is;
* `Reading.readsBack_of_decodeJson` : JSON that has been decoded is read back;
* `Value.readsBack_list`, `Value.readsBack_map` : so is an untyped list or map if what stands in it
  is.

A decoder forgets how its text was written: the order of members and their repetitions.  What it
keeps has distinct keys, ascending ones where members are sorted, so decoding it again changes
nothing.
-/

namespace JobFile

open Decimal (Number)

/-- What is made of a result is only there if the result is. -/
theorem ok_of_map {ε α β : Type} {x : Except ε α} {f : α → β} {b : β}
    (h : x.map f = .ok b) : ∃ a, x = .ok a ∧ f a = b := by
  cases x with
  | error why => cases h
  | ok a => exact ⟨a, rfl, Except.ok.inj h⟩

theorem ok_of_mapError {ε ε' α : Type} {x : Except ε α} {f : ε → ε'} {a : α}
    (h : x.mapError f = .ok a) : x = .ok a := by
  cases x with
  | error why => cases h
  | ok b => exact congrArg _ (Except.ok.inj h)

mutual
/-- Is no number a double? -/
def Reading.isExact : Reading → Bool
  | .number (.double _) => false
  | .array items => items.isExact
  | .object members => members.isExact
  | _ => true
/-- Is no number in the items a double? -/
def Items.isExact : Items → Bool
  | .item head tail => head.isExact && tail.isExact
  | _ => true
/-- Is no number in the members a double? -/
def Members.isExact : Members → Bool
  | .member _ value tail => value.isExact && tail.isExact
  | _ => true
end

section

variable {α : Type} (decode : Reading → Except ReadError α) (json : α → Json)

/-- The JSON form of a value is decoded to this value, holds no double, and nests no more than the
given number of containers. -/
structure ReadsBack (depth : Nat) (a : α) : Prop where
  plain : (json a).Plain depth
  decoded : decode (json a).reading = .ok a

variable {decode json}

/-- The text of a plain value is decoded as the value itself. -/
theorem parse_text {j : Json} (h : j.Plain maxDepth) :
    parse decode j.text = decode j.reading := by
  unfold parse parseReading
  rw [Reading.ofText_text h]
  simp only [Json.limit_reading _ _ h, if_true]
  exact bind_pure _

/-- The text of a value that is read back is decoded to this value. -/
theorem ReadsBack.parse {a : α} (h : ReadsBack decode json maxDepth a) :
    JobFile.parse decode (json a).text = .ok a :=
  (parse_text h.plain).trans h.decoded

/-- A text that is decoded is decoded from what it holds, cut off where it is nested too deeply. -/
theorem ok_of_parse {s : String} {a : α} (h : JobFile.parse decode s = .ok a) :
    decode ((Reading.ofText s).1.limit maxDepth) = .ok a := by
  unfold JobFile.parse parseReading at h
  generalize Reading.ofText s = r at h ⊢
  obtain ⟨b, hb, hend⟩ := ok_of_bind h
  split at hend
  · cases hend
    exact hb
  · cases hend

/-- A value that cannot be null is read where it may be absent. -/
theorem decodeOptional_of_ok {why : ReadError} {r : Reading} {a : α} (hnull : decode .null = .error why) (h : decode r = .ok a) :
    decodeOptional decode r = .ok (some a) := by
  cases r with
  | null =>
    rw [hnull] at h
    cases h
  | _ =>
    rw [decodeOptional, h]
    · rfl
    · exact nofun

/-- A value that is there has been read. -/
theorem ok_of_decodeOptional {r : Reading} {a : α} (h : decodeOptional decode r = .ok (some a)) : decode r = .ok a := by
  unfold decodeOptional at h
  split at h
  · cases h
  · obtain ⟨b, hb, heq⟩ := ok_of_map h
    cases heq
    exact hb

end

/-! ## JSON values -/

namespace Reading

variable {depth : Nat}

theorem decodeJson_items {vs : List Json} (h : ∀ v ∈ vs, ReadsBack decodeJson id depth v) :
    decodeJsonItems (Json.itemsReading vs) = .ok vs := by
  induction vs with
  | nil => rfl
  | cons v vs ih =>
    have hv : decodeJson v.reading = .ok v := (h v List.mem_cons_self).decoded
    have hvs := ih fun w hw => h w (List.mem_cons_of_mem v hw)
    rw [Json.itemsReading, decodeJsonItems, hv, hvs]
    rfl

/-- Members are put in place one after the other. -/
theorem decodeJson_members {ms before : Entries Json}
    (h : ∀ m ∈ ms, ReadsBack decodeJson id depth m.2) :
    decodeJsonMembers before (Json.membersReading ms) = .ok (Json.insertAll before ms) := by
  induction ms generalizing before with
  | nil => rfl
  | cons m ms ih =>
    obtain ⟨k, v⟩ := m
    have hv : decodeJson v.reading = .ok v := (h (k, v) List.mem_cons_self).decoded
    rw [Json.membersReading, decodeJsonMembers, hv]
    exact ih fun m hm => h m (List.mem_cons_of_mem _ hm)

theorem readsBack_array {vs : List Json} (h : ∀ v ∈ vs, ReadsBack decodeJson id depth v) :
    ReadsBack decodeJson id (depth + 1) (.array vs) where
  plain := Json.allPlain_iff.2 fun v hv => (h v hv).plain
  decoded := by
    show (decodeJsonItems (Json.itemsReading vs)).map Json.array = _
    rw [decodeJson_items h]
    rfl

theorem readsBack_object {ms : Entries Json} (hsorted : ms.Ascending)
    (h : ∀ m ∈ ms, ReadsBack decodeJson id depth m.2) :
    ReadsBack decodeJson id (depth + 1) (.object ms) where
  plain := Json.membersPlain_iff.2 fun m hm => (h m hm).plain
  decoded := by
    have hms : decodeJsonMembers [] (Json.membersReading ms) = .ok ms := by
      rw [decodeJson_members h, Json.insertAll_of_ascending (by simpa using hsorted)]
      rfl
    show (decodeJsonMembers [] (Json.membersReading ms)).map Json.object = _
    rw [hms]
    rfl

mutual
/-- **Decoded JSON is read back.** -/
theorem readsBack_of_decodeJson : ∀ (r : Reading) (depth : Nat) (v : Json), r.isExact = true →
    decodeJson (r.limit depth) = .ok v → ReadsBack decodeJson id depth v
  | .null => by
    intro depth v _ h
    cases depth <;> cases h <;> exact ⟨by simp [Json.Plain], rfl⟩
  | .bool b => by
    intro depth v _ h
    cases depth <;> cases h <;> exact ⟨by simp [Json.Plain], rfl⟩
  | .string s => by
    intro depth v _ h
    cases depth <;> cases h <;> exact ⟨by simp [Json.Plain], rfl⟩
  | .number (.integer i exact) => by
    intro depth v _ h
    cases depth <;> cases h <;> exact ⟨by simp [Json.Plain], rfl⟩
  | .number (.double x) => by
    intro _ _ hexact
    cases hexact
  | .meaningless => by
    intro depth v _ h
    cases depth <;> cases h
  | .broken => by
    intro depth v _ h
    cases depth <;> cases h
  | .array items => by
    intro depth v hexact h
    cases depth with
    | zero => cases h
    | succ depth =>
      obtain ⟨vs, hvs, rfl⟩ := ok_of_map h
      exact readsBack_array (readsBack_of_decodeJsonItems items depth vs hexact hvs)
  | .object members => by
    intro depth v hexact h
    cases depth with
    | zero => cases h
    | succ depth =>
      obtain ⟨ms, hms, rfl⟩ := ok_of_map h
      obtain ⟨hsorted, hback⟩ := readsBack_of_decodeJsonMembers members depth [] ms hexact
        List.Pairwise.nil (by simp) hms
      exact readsBack_object hsorted hback
theorem readsBack_of_decodeJsonItems : ∀ (items : Items) (depth : Nat) (vs : List Json),
    items.isExact = true → decodeJsonItems (items.limit depth) = .ok vs →
    ∀ v ∈ vs, ReadsBack decodeJson id depth v
  | .close => by
    intro depth vs _ h
    cases h
    simp
  | .broken => by
    intro depth vs _ h
    cases h
  | .item head tail => by
    intro depth vs hexact h
    obtain ⟨hhead, htail⟩ := Bool.and_eq_true_iff.1 hexact
    obtain ⟨v, hv, hrest⟩ := ok_of_bind h
    obtain ⟨ws, hws, heq⟩ := ok_of_bind hrest
    cases heq
    refine List.forall_mem_cons.2 ⟨?_, ?_⟩
    · exact readsBack_of_decodeJson head depth v hhead hv
    · exact readsBack_of_decodeJsonItems tail depth ws htail hws
/-- Members that are decoded keep the keys ascending. -/
theorem readsBack_of_decodeJsonMembers : ∀ (members : Members) (depth : Nat)
    (before after : Entries Json), members.isExact = true → before.Ascending →
    (∀ m ∈ before, ReadsBack decodeJson id depth m.2) →
    decodeJsonMembers before (members.limit depth) = .ok after →
    after.Ascending ∧ ∀ m ∈ after, ReadsBack decodeJson id depth m.2
  | .close => by
    intro depth before after _ hsorted hback h
    cases h
    exact ⟨hsorted, hback⟩
  | .broken => by
    intro depth before after _ _ _ h
    cases h
  | .member none value tail => by
    intro depth before after _ _ _ h
    cases h
  | .member (some key) value tail => by
    intro depth before after hexact hsorted hback h
    obtain ⟨hvalue, htail⟩ := Bool.and_eq_true_iff.1 hexact
    obtain ⟨v, hv, hrest⟩ := ok_of_bind h
    have hnew := readsBack_of_decodeJson value depth v hvalue hv
    refine readsBack_of_decodeJsonMembers tail depth _ after htail
      (Json.ascending_insert key v hsorted) ?_ hrest
    intro m hm
    rcases Json.mem_insert key v hm with rfl | hm
    · exact hnew
    · exact hback m hm
end

end Reading

/-! ## Untyped values -/

/-- An integer of 64 bits is exact. -/
theorem Json.ofInt_toInt (i : Int64) :
    ∃ exact : Decimal.IsExact i.toInt, Json.ofInt i.toInt = .number (.integer i.toInt exact) := by
  have hlow := i.le_toInt
  have hhigh := i.toInt_lt
  have exact : Decimal.IsExact i.toInt := ⟨by omega, by omega⟩
  exact ⟨exact, by simp [Json.ofInt, Number.ofInt, exact]⟩

namespace Value

variable {depth : Nat}

/-- An integer of 64 bits is read back. -/
theorem readsBack_integer (depth : Nat) (i : Int64) : ReadsBack decode json depth (.integer i) := by
  obtain ⟨exact, hi⟩ := Json.ofInt_toInt i
  have hhigh : i.toInt < 0x8000000000000000 := i.toInt_lt
  have hjson : json (.integer i) = .number (.integer i.toInt exact) := hi
  refine ⟨?_, ?_⟩
  · rw [hjson]
    simp [Json.Plain]
  · rw [hjson]
    simp [Json.reading, decode, ofNumber, hhigh]

theorem decode_items {vs : List Value} (h : ∀ v ∈ vs, ReadsBack decode json depth v) :
    decodeItems (Json.itemsReading (itemsJson vs)) = .ok vs := by
  induction vs with
  | nil => rfl
  | cons v vs ih =>
    have hv := (h v List.mem_cons_self).decoded
    have hvs := ih fun w hw => h w (List.mem_cons_of_mem v hw)
    rw [itemsJson, Json.itemsReading, decodeItems, hv, hvs]
    rfl

theorem decode_members {es before : Entries Value}
    (hes : ∀ e ∈ es, ReadsBack decode json depth e.2)
    (hnodup : (Entries.keys (before ++ es)).Nodup) :
    decodeMembers before (Json.membersReading (entriesJson es)) = .ok (before ++ es) := by
  induction es generalizing before with
  | nil =>
    rw [List.append_nil]
    rfl
  | cons e es ih =>
    obtain ⟨k, v⟩ := e
    have hv := (hes (k, v) List.mem_cons_self).decoded
    have hnew : k ∉ before.keys := Entries.not_mem_of_nodup hnodup
    rw [List.append_cons] at hnodup ⊢
    have hrest := ih (fun e he => hes e (List.mem_cons_of_mem _ he)) hnodup
    rw [entriesJson, Json.membersReading, decodeMembers, hv]
    show decodeMembers (before.put k v) _ = _
    rw [Entries.put_append hnew, hrest]

theorem allPlain_itemsJson {vs : List Value} (h : ∀ v ∈ vs, ReadsBack decode json depth v) :
    Json.AllPlain depth (itemsJson vs) := by
  induction vs with
  | nil => simp [itemsJson, Json.AllPlain]
  | cons v vs ih =>
    exact ⟨(h v List.mem_cons_self).plain, ih fun w hw => h w (List.mem_cons_of_mem v hw)⟩

theorem membersPlain_entriesJson {es : Entries Value}
    (h : ∀ e ∈ es, ReadsBack decode json depth e.2) :
    Json.MembersPlain depth (entriesJson es) := by
  induction es with
  | nil => simp [entriesJson, Json.MembersPlain]
  | cons e es ih =>
    exact ⟨(h e List.mem_cons_self).plain, ih fun e' he => h e' (List.mem_cons_of_mem e he)⟩

theorem readsBack_list {vs : List Value} (h : ∀ v ∈ vs, ReadsBack decode json depth v) :
    ReadsBack decode json (depth + 1) (.list vs) where
  plain := allPlain_itemsJson h
  decoded := by
    show (decodeItems (Json.itemsReading (itemsJson vs))).map list = _
    rw [decode_items h]
    rfl

/-- The JSON form of entries. -/
def objectJson (es : Entries Value) : Json := .object (entriesJson es)

theorem readsBack_map {es : Entries Value} (hnodup : es.keys.Nodup)
    (h : ∀ e ∈ es, ReadsBack decode json depth e.2) :
    ReadsBack decode json (depth + 1) (.map es) where
  plain := membersPlain_entriesJson h
  decoded := by
    have hes : decodeMembers [] (Json.membersReading (entriesJson es)) = .ok es :=
      decode_members h (by simpa using hnodup)
    show (decodeMembers [] (Json.membersReading (entriesJson es))).map map = _
    rw [hes]
    rfl

end Value

end JobFile
