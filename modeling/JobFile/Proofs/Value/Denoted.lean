import Mathlib
import JobFile.Proofs.Json.ReadsBack
import JobFile.Proofs.Value.Inside

/-!
# What values a text stands for

* `Value.Denotes`          : the value for which something read stands;
* `Value.decode_eq_ok_iff` : this value is decoded, and no other;
* `Value.Denotes.no_null`  : nothing that holds a null stands for a value;
* `Value.limit_of_denotes` : what is decoded was not cut off, and its containers are nested no deeper
  than allowed;
* `Value.Denotes.distinct`, `Value.Denotes.doubleless` : no map inside what is decoded repeats a key,
  and no double stands there unless one was read;
* `Value.readsBack_of_distinct` : a value of which this holds is read back;
* `Value.readsBack_of_decode`, `Value.readsBack_of_decodeEntries` : so is every value that has been
  decoded;
* `Value.decode_inverts_json` : values that are printed are read back, and values that are read are.

The decoder puts one entry after the other into a map.  What the map is in the end is said without
it: of a key that is repeated the first place and the last value are kept.
-/

namespace JobFile

open Decimal (Number)

/-! ## Nulls -/

mutual
/-- Does a null stand anywhere in what was read? -/
def Reading.hasNull : Reading → Bool
  | .null => true
  | .array items => items.hasNull
  | .object members => members.hasNull
  | _ => false
/-- Does a null stand anywhere in the items? -/
def Items.hasNull : Items → Bool
  | .item head tail => head.hasNull || tail.hasNull
  | _ => false
/-- Does a null stand anywhere in the values of the members? -/
def Members.hasNull : Members → Bool
  | .member _ value tail => value.hasNull || tail.hasNull
  | _ => false
end

namespace Value

/-! ## Values that are denoted -/

mutual
/-- The value for which something read stands. -/
inductive Denotes : Reading → Value → Prop
  | boolean (b : Bool) : Denotes (.bool b) (.boolean b)
  | integer (i : Int64) (exact : Decimal.IsExact i.toInt) :
    Denotes (.number (.integer i.toInt exact)) (.integer i)
  /-- An integer beyond 64 bits stands for the text of its digits. -/
  | digits {i : Int} (exact : Decimal.IsExact i) (large : 0x8000000000000000 ≤ i) :
    Denotes (.number (.integer i exact)) (.text (toString i))
  | double (x : Float) : Denotes (.number (.double x)) (.double x)
  | text (s : String) : Denotes (.string s) (.text s)
  | list {items : Items} {vs : List Value} (inside : DenotesItems items vs) :
    Denotes (.array items) (.list vs)
  | map {members : Members} {es fs : Entries Value} (inside : DenotesMembers members fs)
    (merged : es.Merges fs) : Denotes (.object members) (.map es)
/-- The values for which items stand. -/
inductive DenotesItems : Items → List Value → Prop
  | close : DenotesItems .close []
  | item {r : Reading} {v : Value} {items : Items} {vs : List Value} (head : Denotes r v)
    (tail : DenotesItems items vs) : DenotesItems (.item r items) (v :: vs)
/-- The entries for which members stand, one for each member. -/
inductive DenotesMembers : Members → Entries Value → Prop
  | close : DenotesMembers .close []
  | member (key : String) {r : Reading} {v : Value} {members : Members} {fs : Entries Value}
    (value : Denotes r v) (tail : DenotesMembers members fs) :
    DenotesMembers (.member (some key) r members) ((key, v) :: fs)
end

theorem denotes_ofNumber (n : Number) : Denotes (.number n) (ofNumber n) := by
  cases n with
  | double x => exact .double x
  | integer i exact =>
    simp only [ofNumber]
    split
    · rename_i hsmall
      have hi : (Int64.ofInt i).toInt = i := Int64.toInt_ofInt_of_le exact.1 hsmall
      have hdenotes := Denotes.integer (Int64.ofInt i) (hi.symm ▸ exact)
      simpa only [hi] using hdenotes
    · rename_i hlarge
      exact .digits exact (Int.not_lt.1 hlarge)

mutual
/-- What is decoded is denoted. -/
theorem denotes_of_decode : ∀ (r : Reading) {v : Value}, decode r = .ok v → Denotes r v
  | .null, _, h | .meaningless, _, h | .broken, _, h => nomatch h
  | .bool b, _, h => by
    cases h
    exact .boolean b
  | .number n, _, h => by
    cases h
    exact denotes_ofNumber n
  | .string s, _, h => by
    cases h
    exact .text s
  | .array items, _, h => by
    obtain ⟨vs, hvs, rfl⟩ := ok_of_map h
    exact .list (denotes_of_decodeItems items hvs)
  | .object members, _, h => by
    obtain ⟨es, hes, rfl⟩ := ok_of_map h
    obtain ⟨fs, hfs, rfl⟩ := denotes_of_decodeMembers members hes
    exact .map hfs (Entries.merges_iff.2 rfl)
theorem denotes_of_decodeItems : ∀ (items : Items) {vs : List Value},
    decodeItems items = .ok vs → DenotesItems items vs
  | .close, _, h => by
    cases h
    exact .close
  | .broken, _, h => nomatch h
  | .item head tail, _, h => by
    obtain ⟨v, hv, h⟩ := ok_of_bind h
    obtain ⟨vs, hvs, h⟩ := ok_of_bind h
    cases h
    exact .item (denotes_of_decode head hv) (denotes_of_decodeItems tail hvs)
theorem denotes_of_decodeMembers : ∀ (members : Members) {before es : Entries Value},
    decodeMembers before members = .ok es →
      ∃ fs, DenotesMembers members fs ∧ es = before.putAll fs
  | .close, _, _, h => by
    cases h
    exact ⟨[], .close, rfl⟩
  | .broken, _, _, h | .member none _ _, _, _, h => nomatch h
  | .member (some key) value tail, _, _, h => by
    obtain ⟨v, hv, h⟩ := ok_of_bind h
    obtain ⟨fs, hfs, rfl⟩ := denotes_of_decodeMembers tail h
    exact ⟨(key, v) :: fs, .member key (denotes_of_decode value hv) hfs, rfl⟩
end

mutual
/-- What is denoted is decoded. -/
theorem decode_of_denotes : ∀ {r : Reading} {v : Value}, Denotes r v → decode r = .ok v
  | _, _, .boolean _ | _, _, .double _ | _, _, .text _ => rfl
  | _, _, .integer i exact => by
    have hi : i.toInt < 0x8000000000000000 := i.toInt_lt
    simp [decode, ofNumber, hi]
  | _, _, .digits exact large => by
    simp [decode, ofNumber, Int.not_lt.2 large]
  | _, _, .list inside => by
    rw [decode, decodeItems_of_denotes inside]
    rfl
  | _, _, .map inside merged => by
    rw [decode, decodeMembers_of_denotes inside [], ← Entries.merges_iff.1 merged]
    rfl
theorem decodeItems_of_denotes : ∀ {items : Items} {vs : List Value},
    DenotesItems items vs → decodeItems items = .ok vs
  | _, _, .close => rfl
  | _, _, .item head tail => by
    rw [decodeItems, decode_of_denotes head, decodeItems_of_denotes tail]
    rfl
theorem decodeMembers_of_denotes : ∀ {members : Members} {fs : Entries Value},
    DenotesMembers members fs → ∀ before, decodeMembers before members = .ok (before.putAll fs)
  | _, _, .close, _ => rfl
  | _, _, .member key value tail, before => by
    rw [decodeMembers, decode_of_denotes value]
    exact decodeMembers_of_denotes tail (before.put key _)
end

/-- **A value is decoded exactly if it is denoted.** -/
theorem decode_eq_ok_iff {r : Reading} {v : Value} : decode r = .ok v ↔ Denotes r v :=
  ⟨denotes_of_decode r, decode_of_denotes⟩

/-! ## What is refused -/

mutual
/-- Nothing that holds a null stands for a value. -/
theorem Denotes.no_null : ∀ {r : Reading} {v : Value}, Denotes r v → r.hasNull = false
  | _, _, .boolean _ | _, _, .integer _ _ | _, _, .digits _ _ | _, _, .double _ | _, _, .text _ =>
    rfl
  | _, _, .list inside => inside.no_null
  | _, _, .map inside _ => inside.no_null
theorem DenotesItems.no_null : ∀ {items : Items} {vs : List Value},
    DenotesItems items vs → items.hasNull = false
  | _, _, .close => rfl
  | _, _, .item head tail => by simp [Items.hasNull, head.no_null, tail.no_null]
theorem DenotesMembers.no_null : ∀ {members : Members} {fs : Entries Value},
    DenotesMembers members fs → members.hasNull = false
  | _, _, .close => rfl
  | _, _, .member _ value tail => by simp [Members.hasNull, value.no_null, tail.no_null]
end

mutual
/-- What stands for a value has not been cut off, so the value is not nested deeper. -/
theorem limit_of_denotes : ∀ (r : Reading) {depth : Nat} {v : Value},
    Denotes (r.limit depth) v → r.limit depth = r ∧ v.nesting ≤ depth
  | .null, depth, _ | .bool _, depth, _ | .number _, depth, _ | .string _, depth, _
  | .meaningless, depth, _ | .broken, depth, _ => by
    intro h
    cases depth <;> cases h <;> exact ⟨rfl, Nat.zero_le _⟩
  | .array _, 0, _ | .object _, 0, _ => by
    rintro ⟨⟩
    contradiction
  | .array items, depth + 1, _ => by
    rintro (_ | _ | _ | _ | _ | inside)
    obtain ⟨hitems, hvs⟩ := limit_of_denotesItems items inside
    refine ⟨congrArg Reading.array hitems, ?_⟩
    rw [nesting]
    exact Nat.succ_le_succ (itemsNesting_le_iff.2 hvs)
  | .object members, depth + 1, _ => by
    rintro (_ | _ | _ | _ | _ | _ | ⟨inside, merged⟩)
    obtain ⟨hmembers, hfs⟩ := limit_of_denotesMembers members inside
    refine ⟨congrArg Reading.object hmembers, ?_⟩
    rw [nesting]
    exact Nat.succ_le_succ (entriesNesting_le_iff.2 fun e he => hfs e (merged.mem he))
theorem limit_of_denotesItems : ∀ (items : Items) {depth : Nat} {vs : List Value},
    DenotesItems (items.limit depth) vs →
      items.limit depth = items ∧ ∀ v ∈ vs, v.nesting ≤ depth
  | .close, _, _ => by
    rintro ⟨⟩
    exact ⟨rfl, List.forall_mem_nil _⟩
  | .broken, _, _ => nofun
  | .item head tail, depth, _ => by
    rintro (_ | ⟨hv, hvs⟩)
    obtain ⟨hhead, hle⟩ := limit_of_denotes head hv
    obtain ⟨htail, hall⟩ := limit_of_denotesItems tail hvs
    refine ⟨?_, List.forall_mem_cons.2 ⟨hle, hall⟩⟩
    rw [Items.limit, hhead, htail]
theorem limit_of_denotesMembers : ∀ (members : Members) {depth : Nat} {fs : Entries Value},
    DenotesMembers (members.limit depth) fs →
      members.limit depth = members ∧ ∀ e ∈ fs, e.2.nesting ≤ depth
  | .close, _, _ => by
    rintro ⟨⟩
    exact ⟨rfl, List.forall_mem_nil _⟩
  | .broken, _, _ => nofun
  | .member key value tail, depth, _ => by
    rintro (_ | ⟨_, hv, hfs⟩)
    obtain ⟨hvalue, hle⟩ := limit_of_denotes value hv
    obtain ⟨htail, hall⟩ := limit_of_denotesMembers tail hfs
    refine ⟨?_, List.forall_mem_cons.2 ⟨hle, hall⟩⟩
    rw [Members.limit, hvalue, htail]
end

/-- What is decoded is denoted by all that was read, and is nested no deeper than allowed. -/
theorem denotes_of_decode_limit {r : Reading} {depth : Nat} {v : Value}
    (h : decode (r.limit depth) = .ok v) : Denotes r v ∧ v.nesting ≤ depth := by
  have hdenotes := decode_eq_ok_iff.1 h
  obtain ⟨hlimit, hle⟩ := limit_of_denotes r hdenotes
  rw [hlimit] at hdenotes
  exact ⟨hdenotes, hle⟩

/-- **A text is decoded as the value for which it stands**, and is nested no deeper than allowed. -/
theorem denotes_of_parse {s : String} {v : Value} (h : parse decode s = .ok v) :
    Denotes (Reading.ofText s).1 v ∧ v.nesting ≤ maxDepth :=
  denotes_of_decode_limit (ok_of_parse h)

/-! ## Values that survive -/

mutual
/-- No map inside a value that is denoted repeats a key. -/
theorem Denotes.distinct : ∀ {r : Reading} {v : Value}, Denotes r v → v.Distinct
  | _, _, .boolean _ | _, _, .integer _ _ | _, _, .digits _ _ | _, _, .double _ | _, _, .text _ => by
    rintro es ⟨⟩
  | _, _, .list inside => distinct_list_iff.2 inside.distinct
  | _, _, .map inside merged =>
    distinct_map_iff.2 ⟨merged.nodup, fun e he => inside.distinct e (merged.mem he)⟩
theorem DenotesItems.distinct : ∀ {items : Items} {vs : List Value},
    DenotesItems items vs → ∀ v ∈ vs, v.Distinct
  | _, _, .close => List.forall_mem_nil _
  | _, _, .item head tail => List.forall_mem_cons.2 ⟨head.distinct, tail.distinct⟩
theorem DenotesMembers.distinct : ∀ {members : Members} {fs : Entries Value},
    DenotesMembers members fs → ∀ e ∈ fs, e.2.Distinct
  | _, _, .close => List.forall_mem_nil _
  | _, _, .member _ value tail => List.forall_mem_cons.2 ⟨value.distinct, tail.distinct⟩
end

mutual
/-- No double stands inside a value for which none was read. -/
theorem Denotes.doubleless : ∀ {r : Reading} {v : Value}, Denotes r v → r.isExact = true →
    v.Doubleless
  | _, _, .boolean _, _ | _, _, .integer _ _, _ | _, _, .digits _ _, _ | _, _, .text _, _ => by
    rintro w ⟨⟩
    nofun
  | _, _, .double _, hexact => nomatch hexact
  | _, _, .list inside, hexact => doubleless_list_iff.2 (inside.doubleless hexact)
  | _, _, .map inside merged, hexact =>
    doubleless_map_iff.2 fun e he => inside.doubleless hexact e (merged.mem he)
theorem DenotesItems.doubleless : ∀ {items : Items} {vs : List Value},
    DenotesItems items vs → items.isExact = true → ∀ v ∈ vs, v.Doubleless
  | _, _, .close, _ => List.forall_mem_nil _
  | _, _, .item head tail, hexact => by
    obtain ⟨hhead, htail⟩ := Bool.and_eq_true_iff.1 hexact
    exact List.forall_mem_cons.2 ⟨head.doubleless hhead, tail.doubleless htail⟩
theorem DenotesMembers.doubleless : ∀ {members : Members} {fs : Entries Value},
    DenotesMembers members fs → members.isExact = true → ∀ e ∈ fs, e.2.Doubleless
  | _, _, .close, _ => List.forall_mem_nil _
  | _, _, .member _ value tail, hexact => by
    obtain ⟨hvalue, htail⟩ := Bool.and_eq_true_iff.1 hexact
    exact List.forall_mem_cons.2 ⟨value.doubleless hvalue, tail.doubleless htail⟩
end

mutual
/-- A value is read back if no double stands inside, no map inside repeats a key and its containers
are not nested too deeply. -/
theorem readsBack_of_distinct : ∀ (v : Value) {depth : Nat}, v.Doubleless → v.Distinct →
    v.nesting ≤ depth → ReadsBack decode json depth v
  | .boolean b, _, _, _, _ => ⟨by simp [json, Json.Plain], rfl⟩
  | .text s, _, _, _, _ => ⟨by simp [json, Json.Plain], rfl⟩
  | .integer i, depth, _, _, _ => readsBack_integer depth i
  | .double _, _, hdouble, _, _ => absurd rfl (hdouble _ .here)
  | .list _, 0, _, _, hle | .map _, 0, _, _, hle => absurd hle (Nat.not_succ_le_zero _)
  | .list vs, depth + 1, hdouble, hdistinct, hle => by
    rw [nesting, Nat.succ_le_succ_iff, itemsNesting_le_iff] at hle
    apply readsBack_list
    exact readsBack_items vs (doubleless_list_iff.1 hdouble) (distinct_list_iff.1 hdistinct) hle
  | .map es, depth + 1, hdouble, hdistinct, hle => by
    obtain ⟨hkeys, hes⟩ := distinct_map_iff.1 hdistinct
    rw [nesting, Nat.succ_le_succ_iff, entriesNesting_le_iff] at hle
    apply readsBack_map hkeys
    exact readsBack_values es (doubleless_map_iff.1 hdouble) hes hle
theorem readsBack_items : ∀ (vs : List Value) {depth : Nat}, (∀ v ∈ vs, v.Doubleless) →
    (∀ v ∈ vs, v.Distinct) → (∀ v ∈ vs, v.nesting ≤ depth) →
    ∀ v ∈ vs, ReadsBack decode json depth v
  | [], _, _, _, _ => List.forall_mem_nil _
  | v :: vs, _, hdouble, hdistinct, hle => by
    rw [List.forall_mem_cons] at hdouble hdistinct hle ⊢
    exact ⟨readsBack_of_distinct v hdouble.1 hdistinct.1 hle.1,
      readsBack_items vs hdouble.2 hdistinct.2 hle.2⟩
theorem readsBack_values : ∀ (es : Entries Value) {depth : Nat}, (∀ e ∈ es, e.2.Doubleless) →
    (∀ e ∈ es, e.2.Distinct) → (∀ e ∈ es, e.2.nesting ≤ depth) →
    ∀ e ∈ es, ReadsBack decode json depth e.2
  | [], _, _, _, _ => List.forall_mem_nil _
  | (k, v) :: es, _, hdouble, hdistinct, hle => by
    rw [List.forall_mem_cons] at hdouble hdistinct hle ⊢
    exact ⟨readsBack_of_distinct v hdouble.1 hdistinct.1 hle.1,
      readsBack_values es hdouble.2 hdistinct.2 hle.2⟩
end

/-- **A decoded value is read back.** -/
theorem readsBack_of_decode {r : Reading} {depth : Nat} {v : Value} (hexact : r.isExact = true)
    (h : decode (r.limit depth) = .ok v) : ReadsBack decode json depth v := by
  obtain ⟨hdenotes, hle⟩ := denotes_of_decode_limit h
  exact readsBack_of_distinct v (hdenotes.doubleless hexact) hdenotes.distinct hle

/-- Entries are decoded where a map of them is. -/
theorem decodeEntries_eq_ok_iff {r : Reading} {es : Entries Value} :
    decodeEntries r = .ok es ↔ decode r = .ok (.map es) := by
  constructor
  · intro h
    cases r with
    | object members =>
      have hes : decodeMembers [] members = .ok es := h
      rw [decode, hes]
      rfl
    | _ => cases h
  · intro h
    cases decode_eq_ok_iff.1 h with
    | map inside merged =>
      obtain ⟨fs, hfs, heq⟩ := ok_of_map h
      cases heq
      exact hfs

/-- Decoded entries are read back. -/
theorem readsBack_of_decodeEntries {r : Reading} {depth : Nat} {es : Entries Value}
    (hexact : r.isExact = true) (h : decodeEntries (r.limit depth) = .ok es) :
    ReadsBack decodeEntries objectJson depth es := by
  have hmap := readsBack_of_decode hexact (decodeEntries_eq_ok_iff.1 h)
  exact ⟨hmap.plain, decodeEntries_eq_ok_iff.2 hmap.decoded⟩

/-! ## Texts -/

/-- A value without doubles is read back from its text exactly if no map inside repeats a key and
the containers are not nested too deeply. -/
theorem parse_json_iff {v : Value} (hdouble : v.Doubleless) :
    parse decode v.json.text = .ok v ↔ v.Distinct ∧ v.nesting ≤ maxDepth := by
  constructor
  · intro h
    obtain ⟨hdenotes, hle⟩ := denotes_of_parse h
    exact ⟨hdenotes.distinct, hle⟩
  · rintro ⟨hdistinct, hle⟩
    exact (readsBack_of_distinct v hdouble hdistinct hle).parse

/-- **Decoding a value undoes encoding it**, up to the greatest depth and no further.  Texts with a
null are refused.  Every other text stands for what is decoded of it, which is read back unchanged:
a key that was repeated is there once, and an integer beyond 64 bits has become a text. -/
theorem decode_inverts_json :
    (∀ v : Value, v.Doubleless →
      (parse decode v.json.text = .ok v ↔ v.Distinct ∧ v.nesting ≤ maxDepth)) ∧
      (∀ s : String, (Reading.ofText s).1.hasNull = true → ∃ why, parse decode s = .error why) ∧
      ∀ (s : String) (v : Value), parse decode s = .ok v →
        Denotes (Reading.ofText s).1 v ∧
          ((Reading.ofText s).1.isExact = true → parse decode v.json.text = .ok v) := by
  refine ⟨fun v hdouble => parse_json_iff hdouble, fun s hnull => ?_, fun s v h => ?_⟩
  · cases h : parse decode s with
    | error why => exact ⟨why, rfl⟩
    | ok v =>
      have hno := (denotes_of_parse h).1.no_null
      rw [hnull] at hno
      cases hno
  · refine ⟨(denotes_of_parse h).1, fun hexact => ?_⟩
    exact (readsBack_of_decode hexact (ok_of_parse h)).parse

/-- A text in lists that are nested to the given depth. -/
def nested : Nat → Value
  | 0 => .text "x"
  | depth + 1 => .list [nested depth]

theorem nesting_nested (depth : Nat) : (nested depth).nesting = depth := by
  induction depth with
  | zero => rfl
  | succ depth ih => simp [nested, nesting, itemsNesting, ih]

theorem doubleless_nested (depth : Nat) : (nested depth).Doubleless := by
  induction depth with
  | zero =>
    rintro w ⟨⟩
    nofun
  | succ depth ih => simpa [nested, doubleless_list_iff] using ih

theorem distinct_nested (depth : Nat) : (nested depth).Distinct := by
  induction depth with
  | zero => rintro es ⟨⟩
  | succ depth ih => simpa [nested, distinct_list_iff] using ih

/-- A text in which a key is repeated, with integers on both sides of the greatest that is kept. -/
def repeatedKey : String :=
  "\x7b\"k\":[9223372036854775807],\"a\":-9223372036854775808,\"k\":9223372036854775808\x7d"

/-- The value for which it stands. -/
def mergedKey : Value :=
  .map [("k", .text "9223372036854775808"), ("a", .integer (-0x8000000000000000))]

theorem decode_inverts_json_boundaries :
    parse decode (nested 127).json.text = .ok (nested 127) ∧
      parse decode (nested 128).json.text ≠ .ok (nested 128) ∧
      (∃ why, parse decode "\x7b\"k\":[null],\"k\":1\x7d" = .error why) ∧
      parse decode repeatedKey = .ok mergedKey ∧
      Denotes (Reading.ofText repeatedKey).1 mergedKey ∧
      parse decode mergedKey.json.text = .ok mergedKey := by
  obtain ⟨hsurvives, hnull, hsettles⟩ := decode_inverts_json
  have hdepth := fun depth => hsurvives (nested depth) (doubleless_nested depth)
  have hparse : parse decode repeatedKey = .ok mergedKey := by cbv
  have hexact : (Reading.ofText repeatedKey).1.isExact = true := by cbv
  obtain ⟨hdenotes, hagain⟩ := hsettles repeatedKey mergedKey hparse
  refine ⟨?_, ?_, hnull _ (by cbv), hparse, hdenotes, hagain hexact⟩
  · rw [hdepth, nesting_nested]
    exact ⟨distinct_nested 127, by decide⟩
  · rw [Ne, hdepth, nesting_nested]
    rintro ⟨-, hle⟩
    exact absurd hle (by decide)

end Value

end JobFile
