import Mathlib.Data.List.Nodup
import JobFile.Proofs.Description.Received
import JobFile.Proofs.Json.Permuted

/-!
# Records through untyped members

* `Kind.decode_untyped`  : a value of a kind can be read from the untyped JSON value that is kept
  for it, and then is as it arrives;
* `Members.Fields`       : members with the names of fields, sorted as untyped JSON values;
* `Form.Mirrors`         : the members hold what has been filled into a form, and nothing else;
* `Form.Mirrors.fill`    : they still do once one more field has been filled in;
* `Record.decode_untyped` : a record can be read from the untyped members that are kept for it.
-/

namespace JobFile

/-! ## Values -/

namespace Reading

theorem eq_string_of_decodeText {r : Reading} {s : String} (h : r.decodeText = .ok s) :
    r = .string s := by
  cases r <;> cases h
  rfl

theorem decodeJson_textItems : ∀ (xs : Items) {ss : List String}, decodeTextItems xs = .ok ss →
    decodeJsonItems xs = .ok (ss.map .string)
  | .close, _, h => by
    cases h
    rfl
  | .broken, _, h => nomatch h
  | .item head tail, _, h => by
    obtain ⟨s, hs, h⟩ := ok_of_bind h
    obtain ⟨ss, hss, h⟩ := ok_of_bind h
    cases h
    rw [eq_string_of_decodeText hs, decodeJsonItems, decodeJson_textItems tail hss]
    rfl

/-- Texts by key are kept as strings, in the order of their keys. -/
theorem decodeJson_textMembers : ∀ (ms : Members) {before es : Entries String},
    before.keys.Nodup → decodeTextMembers before ms = .ok es →
    decodeJsonMembers ((Json.insertAll [] before).map fun (k, s) => (k, .string s)) ms =
      .ok ((Json.insertAll [] es).map fun (k, s) => (k, .string s))
  | .close, _, _, _, h => by
    cases h
    rfl
  | .broken, _, _, _, h | .member none _ _, _, _, _, h => nomatch h
  | .member (some key) value tail, before, es, hbefore, h => by
    obtain ⟨s, hs, h⟩ := ok_of_bind h
    have hput := Json.insertAll_put hbefore (k := key) s []
    have htail := decodeJson_textMembers tail (Entries.nodup_put hbefore) h
    rw [hput, ← Json.insert_map] at htail
    rw [eq_string_of_decodeText hs]
    exact htail

end Reading

namespace Kind

/-- **A value can be read from the untyped JSON value that is kept for it**, and then is as it
arrives. -/
theorem decode_untyped (k : Kind) {r : Reading} {v : k.Carrier} (h : k.decode r = .ok v) :
    ∃ j, r.decodeJson = .ok j ∧ k.decode j.reading = .ok (k.received v) := by
  cases k with
  | text | document =>
    rw [Reading.eq_string_of_decodeText h]
    exact ⟨.string v, rfl, rfl⟩
  | integer =>
    cases r with
    | number n => exact ⟨.number n, rfl, h⟩
    | _ => cases h
  | flag =>
    cases r with
    | bool b => exact ⟨.bool b, rfl, h⟩
    | _ => cases h
  | texts =>
    cases r with
    | array xs =>
      refine ⟨Json.ofTexts v, ?_, Reading.decodeTextItems_strings v⟩
      rw [Reading.decodeJson, Reading.decodeJson_textItems xs h]
      rfl
    | _ => cases h
  | textMap =>
    cases r with
    | object ms =>
      have hnone : (Entries.keys ([] : Entries String)).Nodup := List.nodup_nil
      have hmembers := Reading.decodeJson_textMembers ms hnone h
      have hback := Kind.decode_json .textMap _ (Kind.distinct_received .textMap v)
      refine ⟨Kind.textMap.json (Kind.textMap.received v), ?_, hback⟩
      rw [Reading.decodeJson]
      exact congrArg (Except.map Json.object) hmembers
    | _ => cases h

end Kind

/-- What a record holds as it arrives if nothing gets lost. -/
abbrev Field.kept (f : Field) (slot : f.Slot) : f.Slot := slot.received false f.kind.received

theorem Field.decode_untyped (f : Field) {r : Reading} {slot : f.Slot}
    (h : f.decode r = .ok slot) :
    ∃ j, r.decodeJson = .ok j ∧ f.decode j.reading = .ok (f.kept slot) := by
  obtain ⟨name, kind, mandatory, required, fallback, choices⟩ := f
  cases mandatory with
  | true => exact kind.decode_untyped h
  | false =>
    obtain ⟨why, hnull⟩ := kind.decode_null
    by_cases hr : r = .null
    · subst hr
      cases h
      exact ⟨.null, rfl, rfl⟩
    · have hsome : decodeOptional kind.decode r = (kind.decode r).map some := by
        cases r with
        | null => exact absurd rfl hr
        | _ => rfl
      have hdecode : (kind.decode r).map some = .ok slot := hsome.symm.trans h
      cases hv : kind.decode r with
      | error why =>
        rw [hv] at hdecode
        cases hdecode
      | ok v =>
        rw [hv] at hdecode
        cases hdecode
        obtain ⟨j, hj, hback⟩ := kind.decode_untyped hv
        exact ⟨j, hj, decodeOptional_of_ok hnull hback⟩

/-! ## Members with the names of fields -/

/-- Every member has one of the names. -/
def Members.Among (names : List String) : Members → Prop
  | .close | .broken => True
  | .member none _ tail => tail.Among names
  | .member (some key) _ tail => key ∈ names ∧ tail.Among names

/-! ## Forms -/

namespace Form

/-- The members hold what has been filled in for a field, or nothing if that is nothing. -/
def HoldsField (ms : Entries Json) (f : Field) : Option f.Slot → Prop
  | some slot => ∃ j, (f.name, j) ∈ ms ∧ f.decode j.reading = .ok (f.kept slot)
  | none => f.name ∉ ms.keys

/-- The members hold what has been filled into the form. -/
def Mirrors (ms : Entries Json) : {fs : List Field} → Form fs → Prop
  | [], .nil => True
  | f :: _, .cons filled rest => HoldsField ms f filled ∧ rest.Mirrors ms

variable {fs : List Field} {key : String} {ms : Entries Json}

theorem blank_mirrors : (fs : List Field) → (blank fs).Mirrors []
  | [] => trivial
  | _ :: fs => ⟨List.not_mem_nil, blank_mirrors fs⟩

theorem HoldsField.insert {f : Field} {filled : Option f.Slot} (h : HoldsField ms f filled)
    (hne : f.name ≠ key) (j : Json) : HoldsField (Json.insert key j ms) f filled := by
  cases filled with
  | none =>
    intro hmem
    exact ((Json.mem_keys_insert key j).1 hmem).elim hne h
  | some slot =>
    obtain ⟨i, hi, hback⟩ := h
    exact ⟨i, Json.mem_insert_of_ne key j hne hi, hback⟩

/-- A member that is none of the form's makes no difference to it. -/
theorem Mirrors.insert {F : Form fs} (h : F.Mirrors ms) (hkey : key ∉ fs.map Field.name)
    (j : Json) : F.Mirrors (Json.insert key j ms) := by
  induction F with
  | nil => trivial
  | @cons f fs filled rest ih =>
    rw [List.map_cons, List.mem_cons, not_or] at hkey
    exact ⟨h.1.insert (Ne.symm hkey.1) j, ih h.2 hkey.2⟩

/-- **Members that mirror a form still do once one more field has been filled in.** -/
theorem Mirrors.fill {F G : Form fs} (h : F.Mirrors ms) (hnames : (fs.map Field.name).Nodup)
    {known : List String} {value : Reading} (hfill : F.fill known key value = .ok G) :
    key ∈ fs.map Field.name ∧
      ∃ j, value.decodeJson = .ok j ∧ G.Mirrors (Json.insert key j ms) := by
  induction F with
  | nil => cases hfill
  | @cons f fs filled rest ih =>
    obtain ⟨hnew, hrest⟩ := List.nodup_cons.1 hnames
    by_cases hkey : f.name = key
    · subst hkey
      cases filled with
      | some slot =>
        rw [Form.fill, if_pos rfl] at hfill
        cases hfill
      | none =>
        rw [Form.fill, if_pos rfl] at hfill
        obtain ⟨slot, hslot, rfl⟩ := ok_of_map hfill
        obtain ⟨j, hj, hback⟩ := f.decode_untyped hslot
        exact ⟨List.mem_cons_self, j, hj, ⟨j, Json.mem_insert_self f.name j, hback⟩,
          h.2.insert hnew j⟩
    · rw [fill_of_ne hkey] at hfill
      obtain ⟨G', hG, rfl⟩ := ok_of_map hfill
      obtain ⟨hmem, j, hj, hmirrors⟩ := ih h.2 hrest hG
      exact ⟨List.mem_cons_of_mem _ hmem, j, hj, h.1.insert hkey j, hmirrors⟩

/-- The members decide what a field holds that has been filled in or may be left out. -/
theorem HoldsField.reads {f : Field} {filled : Option f.Slot} {slot : f.Slot}
    (h : HoldsField ms f filled) (hms : ms.keys.Nodup)
    (hslot : (filled <|> Slot.unfilled? f.mandatory) = some slot) :
    (f.name ∈ ms.keys ∨ Slot.unfilled? f.mandatory = some (f.kept slot)) ∧
      ∀ m ∈ ms, f.name = m.1 → f.decode m.2.reading = .ok (f.kept slot) := by
  cases filled with
  | some s =>
    cases hslot
    obtain ⟨j, hj, hback⟩ := h
    refine ⟨.inl (List.mem_map_of_mem hj), fun m hm hname => ?_⟩
    cases List.inj_on_of_nodup_map hms hj hm hname
    exact hback
  | none =>
    refine ⟨.inr ?_, fun m hm hname => absurd (hname ▸ List.mem_map_of_mem hm) h⟩
    obtain ⟨name, kind, mandatory, required, fallback, choices⟩ := f
    cases mandatory with
    | true => cases hslot
    | false =>
      cases hslot
      rfl

/-- The record of a form is read from the members that mirror the form, as it arrives. -/
theorem Mirrors.finish {F : Form fs} {r : Record fs} (h : F.Mirrors ms) (hms : ms.keys.Nodup)
    (hfree : ∀ f ∈ fs, f.name ∉ Node.sharedKeys) (hfinish : F.finish = .ok r) :
    r.received.Within ms.keys ∧
      ∀ m ∈ ms, m.1 ∈ fs.map Field.name → r.received.Reads m.1 m.2 := by
  induction F with
  | nil =>
    cases hfinish
    exact ⟨trivial, fun _ _ hmem => nomatch hmem⟩
  | @cons f fs filled rest ih =>
    cases hslot : filled <|> Slot.unfilled? f.mandatory with
    | none =>
      rw [Form.finish, hslot] at hfinish
      cases hfinish
    | some slot =>
      rw [Form.finish, hslot] at hfinish
      obtain ⟨r', hr', rfl⟩ := ok_of_map hfinish
      obtain ⟨hwithin, hreads⟩ := ih h.2 (fun g hg => hfree g (List.mem_cons_of_mem f hg)) hr'
      have hkept : slot.received (decide (f.name ∈ Node.sharedKeys)) f.kind.received =
          f.kept slot := by
        rw [decide_eq_false (hfree f List.mem_cons_self)]
      obtain ⟨hpresent, hread⟩ := h.1.reads hms hslot
      rw [Record.received, hkept]
      refine ⟨⟨hpresent, hwithin⟩, fun m hm hname => ?_⟩
      rw [Record.Reads]
      split
      · rename_i heq
        exact hread m hm heq
      · rename_i hne
        exact hreads m hm ((List.mem_cons.1 hname).resolve_left (Ne.symm hne))

/-- What is filled into a form is read from the untyped members that are kept for it. -/
theorem Mirrors.fillAll (hnames : (fs.map Field.name).Nodup)
    (hfree : ∀ f ∈ fs, f.name ∉ Node.sharedKeys) (known : List String) :
    ∀ (members : Members) {ms : Entries Json} {F : Form fs} {r : Record fs}, ms.Ascending →
      (∀ k ∈ ms.keys, k ∈ fs.map Field.name) → F.Mirrors ms →
      F.fillAll known members = .ok r →
      members.Among (fs.map Field.name) ∧ ∃ all, Reading.decodeJsonMembers ms members = .ok all ∧
        ∀ name, Record.decode name fs (Json.object all).reading = .ok r.received
  | .close, ms, F, r, hms, hknown, h, hfill => by
    obtain ⟨hwithin, hreads⟩ := h.finish hms.nodup hfree hfill
    refine ⟨trivial, ms, rfl, Record.decode_members hnames hms.nodup (fun m hm => ?_) hwithin⟩
    exact hreads m hm (hknown m.1 (List.mem_map_of_mem hm))
  | .broken, _, _, _, _, _, _, hfill | .member none _ _, _, _, _, _, _, _, hfill => nomatch hfill
  | .member (some key) value tail, ms, F, r, hms, hknown, h, hfill => by
    obtain ⟨G, hG, hrest⟩ := ok_of_bind hfill
    obtain ⟨hkey, j, hj, hmirrors⟩ := h.fill hnames hG
    have hall : ∀ k ∈ Entries.keys (Json.insert key j ms), k ∈ fs.map Field.name := by
      intro k hk
      rcases (Json.mem_keys_insert key j).1 hk with rfl | hk
      · exact hkey
      · exact hknown k hk
    obtain ⟨hamong, all, hkept, hread⟩ := Mirrors.fillAll hnames hfree known tail
      (Json.ascending_insert key j hms) hall hmirrors hrest
    refine ⟨⟨hkey, hamong⟩, all, ?_, hread⟩
    rw [Reading.decodeJsonMembers, hj]
    exact hkept

end Form

/-- **A record can be read from the untyped members that are kept for it**, and then is as it
arrives. -/
theorem Record.decode_untyped {fs : List Field} (hnames : (fs.map Field.name).Nodup)
    (hfree : ∀ f ∈ fs, f.name ∉ Node.sharedKeys) {name : String} {members : Members}
    {r : Record fs} (h : Record.decode name fs (.object members) = .ok r) :
    members.Among (fs.map Field.name) ∧
      ∃ all, Reading.decodeJsonMembers [] members = .ok all ∧
        ∀ name, Record.decode name fs (Json.object all).reading = .ok r.received :=
  Form.Mirrors.fillAll hnames hfree _ members List.Pairwise.nil (fun _ hk => nomatch hk)
    (Form.blank_mirrors fs) h

end JobFile
