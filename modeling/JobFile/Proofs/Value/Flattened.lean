import JobFile.Proofs.Value.Occurrence
import Mathlib.Data.List.Lex
import Mathlib.Data.List.Sort
import Mathlib.Logic.Relation

/-!
# Values as lists of texts

* `Value.at?`            : the value at a position, which is a row of item numbers;
* `Value.places`         : the values inside nested lists that are no lists, with their positions;
* `Value.Lists`          : texts that are those of the scalars inside a value, each once and in the
  order of their positions;
* `Value.IsLeftmost`     : the first double or map inside a value;
* `Value.Regroups`       : lists that are put together or taken apart;
* `Value.flatten_lossless` : flattening keeps the scalars and nothing else.

Positions are compared item number by item number, so that the order of positions is the order in
which a value is read from left to right.  They lead through lists only: a map counts as a whole.
-/

namespace JobFile.Value

/-! ## Positions -/

/-- The text of a scalar. -/
def form? : Value → Option String
  | .text s => some s
  | .integer i => some (toString i.toInt)
  | .boolean b => some (if b then "true" else "false")
  | .double _ | .list _ | .map _ => none

/-- Has the value neither a text nor items? -/
def Formless (v : Value) : Prop := v.kind = .double ∨ v.kind = .map

/-- Nothing without a text stands inside the value. -/
def Listable (v : Value) : Prop := ∀ w, Within w v → ¬w.Formless

/-- The value at a position: the numbers of the items that lead to it, from the outside in. -/
def at? : Value → List Nat → Option Value
  | v, [] => some v
  | .list vs, i :: p => vs[i]?.bind fun v => v.at? p
  | _, _ :: _ => none

mutual
/-- The values inside nested lists that are no lists, each with its position. -/
def places : Value → List (List Nat × Value)
  | .list vs => placesFrom 0 vs
  | v => [([], v)]
/-- The same for the items of a list from the given number on. -/
def placesFrom (i : Nat) : List Value → List (List Nat × Value)
  | [] => []
  | v :: vs => v.places.map (fun e => (i :: e.1, e.2)) ++ placesFrom (i + 1) vs
end

mutual
/-- The places of a value are the positions that do not lead to lists. -/
theorem mem_places : ∀ (v : Value) {p : List Nat} {w : Value},
    (p, w) ∈ v.places ↔ v.at? p = some w ∧ w.kind ≠ .list
  | .boolean _, p, w | .integer _, p, w | .double _, p, w | .text _, p, w | .map _, p, w => by
    cases p with
    | nil =>
      simp only [places, List.mem_singleton, Prod.mk.injEq, true_and, at?, Option.some.injEq]
      constructor
      · rintro rfl
        exact ⟨rfl, nofun⟩
      · rintro ⟨rfl, -⟩
        rfl
    | cons i p => simp [places, at?]
  | .list vs, p, w => by
    rw [places, mem_placesFrom vs]
    cases p with
    | nil =>
      simp only [List.nil_eq, reduceCtorEq, false_and, exists_false, at?, Option.some.injEq,
        false_iff]
      rintro ⟨rfl, hkind⟩
      exact hkind rfl
    | cons i p =>
      simp only [List.cons.injEq, at?, Option.bind_eq_some_iff]
      constructor
      · rintro ⟨j, q, u, ⟨rfl, rfl⟩, hu, hw, hkind⟩
        rw [Nat.zero_add]
        exact ⟨⟨u, hu, hw⟩, hkind⟩
      · rintro ⟨⟨u, hu, hw⟩, hkind⟩
        exact ⟨i, p, u, ⟨(Nat.zero_add i).symm, rfl⟩, hu, hw, hkind⟩
theorem mem_placesFrom : ∀ (vs : List Value) {i : Nat} {p : List Nat} {w : Value},
    (p, w) ∈ placesFrom i vs ↔
      ∃ j q u, p = (i + j) :: q ∧ vs[j]? = some u ∧ u.at? q = some w ∧ w.kind ≠ .list
  | [], i, p, w => by simp [placesFrom]
  | v :: vs, i, p, w => by
    rw [placesFrom, List.mem_append, mem_placesFrom vs]
    constructor
    · rintro (h | ⟨j, q, u, rfl, hu, hw, hkind⟩)
      · obtain ⟨⟨q, u⟩, hq, heq⟩ := List.mem_map.1 h
        cases heq
        obtain ⟨hw, hkind⟩ := (mem_places v).1 hq
        exact ⟨0, q, v, rfl, rfl, hw, hkind⟩
      · exact ⟨j + 1, q, u, by rw [Nat.add_right_comm, Nat.add_assoc], hu, hw, hkind⟩
    · rintro ⟨j, q, u, rfl, hu, hw, hkind⟩
      cases j with
      | zero =>
        cases hu
        exact .inl (List.mem_map.2 ⟨(q, w), (mem_places v).2 ⟨hw, hkind⟩, rfl⟩)
      | succ j =>
        exact .inr ⟨j, q, u, by rw [Nat.add_right_comm, Nat.add_assoc], hu, hw, hkind⟩
end

mutual
/-- The places of a value come in the order of their positions. -/
theorem places_ascending : ∀ v : Value, (v.places.map Prod.fst).Pairwise (· < ·)
  | .boolean _ | .integer _ | .double _ | .text _ | .map _ => List.pairwise_singleton _ _
  | .list vs => placesFrom_ascending vs 0
theorem placesFrom_ascending : ∀ (vs : List Value) (i : Nat),
    ((placesFrom i vs).map Prod.fst).Pairwise (· < ·)
  | [], _ => .nil
  | v :: vs, i => by
    have hhead : (v.places.map (fun e => (i :: e.1, e.2))).map Prod.fst =
        (v.places.map Prod.fst).map (i :: ·) := by
      rw [List.map_map, List.map_map]
      rfl
    rw [placesFrom, List.map_append, hhead]
    refine List.pairwise_append.2 ⟨?_, placesFrom_ascending vs (i + 1), ?_⟩
    · refine List.pairwise_map.2 ((places_ascending v).imp fun h => ?_)
      exact List.cons_lt_cons_iff.2 (.inr ⟨rfl, h⟩)
    · intro p hp q hq
      obtain ⟨p', -, rfl⟩ := List.mem_map.1 hp
      obtain ⟨⟨q, w⟩, hw, rfl⟩ := List.mem_map.1 hq
      obtain ⟨j, q', u, rfl, -⟩ := (mem_placesFrom vs).1 hw
      exact List.cons_lt_cons_iff.2 (.inl (by omega))
end

/-- Nothing inside a value lacks a text if nothing does at any of its positions. -/
theorem listable_iff {v : Value} :
    v.Listable ↔ ∀ p w, v.at? p = some w → ¬w.Formless := by
  constructor
  · intro h p w hw
    induction p generalizing v with
    | nil =>
      cases hw
      exact h _ .here
    | cons i p ih =>
      cases v with
      | list vs =>
        obtain ⟨u, hu, hw⟩ := Option.bind_eq_some_iff.1 hw
        exact ih (fun w' hw' => h w' (.item (List.mem_of_getElem? hu) hw')) hw
      | _ => cases hw
  · intro h w hw
    induction hw with
    | here => exact h [] _ rfl
    | @item vs u hu hw ih =>
      obtain ⟨i, hi⟩ := List.mem_iff_getElem?.1 hu
      exact ih fun p w' hw' => h (i :: p) w' (Option.bind_eq_some_iff.2 ⟨u, hi, hw'⟩)
    | @entry es e he hw ih => exact absurd (.inr rfl) (h [] _ rfl)

/-! ## The texts at the places -/

/-- The texts are those of the scalars inside the value, each once and in the order of their
positions. -/
def Lists (v : Value) (texts : List String) : Prop :=
  ∃ ps : List (List Nat), ps.Pairwise (· < ·) ∧
    (∀ p, p ∈ ps ↔ ∃ w s, v.at? p = some w ∧ w.form? = some s) ∧
    ps.map (fun p => (v.at? p).bind form?) = texts.map some

/-- At the position stands a value without a text, and at no earlier one. -/
def IsLeftmost (v : Value) (p : List Nat) (w : Value) : Prop :=
  v.at? p = some w ∧ w.Formless ∧ ∀ q u, v.at? q = some u → u.Formless → p ≤ q

/-- What stands at a place, as an occurrence in a list under the given key. -/
def listed (field : String) (e : List Nat × Value) : Occurrence := ⟨field, true, e.2⟩

theorem listed_offends {field : String} {e : List Nat × Value} :
    (listed field e).Offends ↔ e.2.Formless := by
  simp [listed, Occurrence.Offends, Formless]

theorem kind_ne_list_of_formless {v : Value} (h : v.Formless) : v.kind ≠ .list := by
  rcases h with h | h <;> simp [h]

theorem form?_eq_some_iff {v : Value} :
    (∃ s, v.form? = some s) ↔ ¬v.Formless ∧ v.kind ≠ .list := by
  cases v <;> simp [form?, Formless, kind]

mutual
/-- The check of an item goes through its places. -/
theorem checkItem_places (field : String) : ∀ v : Value,
    v.checkItem field = firstOffence (v.places.map (listed field))
  | .boolean _ | .integer _ | .text _ | .double _ | .map _ => rfl
  | .list vs => checkItems_places field vs 0
theorem checkItems_places (field : String) : ∀ (vs : List Value) (i : Nat),
    checkItems field vs = firstOffence ((placesFrom i vs).map (listed field))
  | [], _ => rfl
  | v :: vs, i => by
    have hhead : (v.places.map (fun e => (i :: e.1, e.2))).map (listed field) =
        v.places.map (listed field) := by
      rw [List.map_map]
      rfl
    rw [checkItems, checkItem_places field v, checkItems_places field vs (i + 1), placesFrom,
      List.map_append, firstOffence_append, hhead]
end

mutual
/-- The leaves of a value are the texts at its places. -/
theorem leaves_places : ∀ v : Value, v.leaves = v.places.filterMap fun e => e.2.form?
  | .boolean b => by cases b <;> rfl
  | .integer _ | .text _ | .double _ | .map _ => rfl
  | .list vs => allLeaves_places vs 0
theorem allLeaves_places : ∀ (vs : List Value) (i : Nat),
    allLeaves vs = (placesFrom i vs).filterMap fun e => e.2.form?
  | [], _ => rfl
  | v :: vs, i => by
    rw [allLeaves, leaves_places v, allLeaves_places vs (i + 1), placesFrom, List.filterMap_append,
      List.filterMap_map]
    rfl
end

/-! ## Success and failure -/

/-- At most one row of texts is that of a value. -/
theorem Lists.unique {v : Value} {ss ts : List String} (hs : v.Lists ss) (ht : v.Lists ts) :
    ss = ts := by
  obtain ⟨ps, hps, hmem, hss⟩ := hs
  obtain ⟨qs, hqs, hmem', hts⟩ := ht
  -- Both rows of positions ascend and have the same members.
  have hpq : ps = qs :=
    (List.sortedLT_iff_pairwise.2 hps).eq_of_mem_iff (List.sortedLT_iff_pairwise.2 hqs)
      fun p => (hmem p).trans (hmem' p).symm
  subst hpq
  exact List.map_injective_iff.2 (Option.some_injective _) (hss.symm.trans hts)

/-- What is read at the positions of some places are the texts there. -/
theorem map_form?_at? {v : Value} {es : List (List Nat × Value)}
    (hes : ∀ e ∈ es, v.at? e.1 = some e.2) :
    ((es.filter fun e => e.2.form?.isSome).map Prod.fst).map (fun p => (v.at? p).bind form?) =
      (es.filterMap fun e => e.2.form?).map some := by
  induction es with
  | nil => rfl
  | cons e es ih =>
    have ih := ih fun e' he' => hes e' (List.mem_cons_of_mem e he')
    have he := hes e List.mem_cons_self
    rw [List.filter_cons, List.filterMap_cons]
    cases hs : e.2.form? with
    | none => exact ih
    | some s =>
      rw [if_pos Option.isSome_some, List.map_cons, List.map_cons, List.map_cons, ih, he,
        Option.bind_some, hs]

/-- The leaves of a value are the texts of the scalars inside it. -/
theorem lists_leaves (v : Value) : v.Lists v.leaves := by
  refine ⟨(v.places.filter fun e => e.2.form?.isSome).map Prod.fst, ?_, ?_, ?_⟩
  · exact (places_ascending v).sublist (List.filter_sublist.map Prod.fst)
  · intro p
    simp only [List.mem_map, List.mem_filter, Prod.exists, exists_and_right, exists_eq_right]
    constructor
    · rintro ⟨w, hw, hs⟩
      obtain ⟨s, hs⟩ := Option.isSome_iff_exists.1 hs
      exact ⟨w, s, ((mem_places v).1 hw).1, hs⟩
    · rintro ⟨w, s, hw, hs⟩
      have hkind := (form?_eq_some_iff.1 ⟨s, hs⟩).2
      exact ⟨w, (mem_places v).2 ⟨hw, hkind⟩, Option.isSome_iff_exists.2 ⟨s, hs⟩⟩
  · rw [leaves_places]
    exact map_form?_at? fun e he => ((mem_places v).1 he).1

variable (field : String)

/-- The check of an item passes exactly if nothing inside it lacks a text. -/
theorem checkItem_eq_ok_iff {v : Value} : v.checkItem field = .ok () ↔ v.Listable := by
  rw [checkItem_places, firstOffence_eq_ok_iff, List.forall_mem_map, listable_iff]
  constructor
  · intro h p w hw hformless
    have hplace := (mem_places v).2 ⟨hw, kind_ne_list_of_formless hformless⟩
    exact h (p, w) hplace (listed_offends.2 hformless)
  · intro h e he hoffends
    exact h e.1 e.2 ((mem_places v).1 he).1 (listed_offends.1 hoffends)

/-- The check of an item refuses the first value inside it that lacks a text. -/
theorem checkItem_eq_error_iff {v : Value} {why : Refusal} :
    v.checkItem field = .error why ↔
      ∃ p w, v.IsLeftmost p w ∧ .unsupportedKind field w.kind = why := by
  rw [checkItem_places, firstOffence_eq_error_iff]
  constructor
  · rintro ⟨before, o, after, hsplit, hbefore, ho, rfl⟩
    obtain ⟨front, rest, hplaces, rfl, hrest⟩ := List.map_eq_append_iff.1 hsplit
    obtain ⟨⟨p, w⟩, behind, rfl, rfl, rfl⟩ := List.map_eq_cons_iff.1 hrest
    have hmem : (p, w) ∈ v.places := by
      rw [hplaces]
      exact List.mem_append_right front List.mem_cons_self
    refine ⟨p, w, ⟨((mem_places v).1 hmem).1, listed_offends.1 ho, fun q u hu hformless => ?_⟩, rfl⟩
    -- What lacks a text stands at the place itself or behind it.
    have hother : (q, u) ∈ v.places := (mem_places v).2 ⟨hu, kind_ne_list_of_formless hformless⟩
    have hascending := places_ascending v
    rw [hplaces] at hother hascending
    rw [List.map_append, List.map_cons] at hascending
    rcases List.mem_append.1 hother with hfront | hrest
    · exact absurd (listed_offends.2 hformless) (hbefore _ (List.mem_map_of_mem hfront))
    · rcases List.mem_cons.1 hrest with heq | hbehind
      · exact (congrArg Prod.fst heq).ge
      · have hpairwise := (List.pairwise_append.1 hascending).2.1
        exact (List.rel_of_pairwise_cons hpairwise (List.mem_map_of_mem hbehind)).le
  · rintro ⟨p, w, ⟨hw, hformless, hfirst⟩, rfl⟩
    have hplace := (mem_places v).2 ⟨hw, kind_ne_list_of_formless hformless⟩
    obtain ⟨front, behind, hplaces⟩ := List.append_of_mem hplace
    refine ⟨front.map (listed field), listed field (p, w), behind.map (listed field), ?_, ?_,
      listed_offends.2 hformless, rfl⟩
    · rw [hplaces, List.map_append, List.map_cons]
    · rintro o ho hoffends
      obtain ⟨⟨q, u⟩, hq, rfl⟩ := List.mem_map.1 ho
      have hother : (q, u) ∈ v.places := by
        rw [hplaces]
        exact List.mem_append_left _ hq
      have hascending := places_ascending v
      rw [hplaces, List.map_append, List.map_cons] at hascending
      have hlt : q < p := (List.pairwise_append.1 hascending).2.2 q (List.mem_map_of_mem hq) p
        List.mem_cons_self
      have hle := hfirst q u ((mem_places v).1 hother).1 (listed_offends.1 hoffends)
      exact absurd hlt (not_lt.2 hle)

/-- Flattening yields the texts of the scalars, unless something lacks a text. -/
theorem flatten_eq_ok_iff {v : Value} {ss : List String} :
    v.flatten field = .ok ss ↔ v.Listable ∧ v.Lists ss := by
  rw [flatten_eq, ← checkItem_eq_ok_iff field]
  constructor
  · intro h
    cases hv : v.checkItem field with
    | error why =>
      rw [hv] at h
      cases h
    | ok u =>
      rw [hv] at h
      cases h
      exact ⟨rfl, lists_leaves v⟩
  · rintro ⟨hv, hss⟩
    rw [hv, hss.unique (lists_leaves v)]
    rfl

/-- Flattening refuses the first value inside that lacks a text. -/
theorem flatten_eq_error_iff {v : Value} {why : Refusal} :
    v.flatten field = .error why ↔
      ∃ p w, v.IsLeftmost p w ∧ .unsupportedKind field w.kind = why := by
  rw [flatten_eq, ← checkItem_eq_error_iff field]
  cases v.checkItem field <;> simp [Except.map]

/-- If something lacks a text, the first that does is to blame. -/
theorem flatten_of_not_listable (v : Value) (h : ¬v.Listable) :
    ∃ p w, v.IsLeftmost p w ∧ v.flatten field = .error (.unsupportedKind field w.kind) := by
  cases hv : v.flatten field with
  | ok ss => exact absurd ((flatten_eq_ok_iff field).1 hv).1 h
  | error why =>
    obtain ⟨p, w, hleftmost, rfl⟩ := (flatten_eq_error_iff field).1 hv
    exact ⟨p, w, hleftmost, rfl⟩

/-! ## Lists put together and taken apart -/

/-- Flattening a row of values is flattening its parts one after the other. -/
theorem flattenAll_append (xs ys : List Value) :
    flattenAll field (xs ++ ys) =
      (flattenAll field xs >>= fun ss => (flattenAll field ys).map (ss ++ ·)) := by
  induction xs with
  | nil =>
    rw [List.nil_append, flattenAll]
    cases flattenAll field ys <;> rfl
  | cons x xs ih =>
    rw [List.cons_append, flattenAll, flattenAll, ih]
    cases x.flatten field with
    | error why => rfl
    | ok ss =>
      cases flattenAll field xs with
      | error why => rfl
      | ok ts =>
        cases flattenAll field ys with
        | error why => rfl
        | ok us => exact congrArg Except.ok (List.append_assoc ss ts us).symm

/-- A value alone in a list flattens as it does outside. -/
theorem flatten_list_singleton (v : Value) :
    (Value.list [v]).flatten field = v.flatten field := by
  rw [flatten, flattenAll, flattenAll]
  cases v.flatten field with
  | error why => rfl
  | ok ss => exact congrArg Except.ok (List.append_nil ss)

/-- Texts flatten to themselves. -/
theorem flatten_ofTexts (ss : List String) : (ofTexts ss).flatten field = .ok ss := by
  rw [ofTexts, flatten]
  induction ss with
  | nil => rfl
  | cons s ss ih =>
    rw [List.map_cons, flattenAll, ih]
    rfl

/-- One value becomes another by a single step of regrouping. -/
inductive Regroups : Value → Value → Prop
  /-- A value is put into a list of its own. -/
  | wrap (v : Value) : Regroups v (.list [v])
  /-- Neighbours in a list become a list inside it. -/
  | gather (before inside after : List Value) :
    Regroups (.list (before ++ inside ++ after)) (.list (before ++ .list inside :: after))
  /-- An item of a list is regrouped. -/
  | item (before after : List Value) {v w : Value} (h : Regroups v w) :
    Regroups (.list (before ++ v :: after)) (.list (before ++ w :: after))

/-- Regrouping does not change the texts, nor what is refused. -/
theorem Regroups.flatten_eq {v w : Value} (h : Regroups v w) :
    v.flatten field = w.flatten field := by
  induction h with
  | wrap v => exact (flatten_list_singleton field v).symm
  | gather before inside after =>
    rw [flatten, flatten, List.append_assoc, flattenAll_append, flattenAll_append field inside,
      flattenAll_append, flattenAll, flatten]
    cases flattenAll field after <;> rfl
  | item before after h ih =>
    rw [flatten, flatten, flattenAll_append, flattenAll_append field before, flattenAll, ih]
    rfl

/-- **Flattening keeps the scalars of a value and nothing else.**  It fails only for a double or a
map, and names the first of them.  It takes lists put end to end one after the other, and forgets
how they were grouped. -/
theorem flatten_lossless :
    (∀ v : Value, (∃ ss, v.flatten field = .ok ss) ↔ v.Listable) ∧
      (∀ (v : Value) ss, v.flatten field = .ok ss ↔ v.Listable ∧ v.Lists ss) ∧
      (∀ (v : Value) why, v.flatten field = .error why ↔
        ∃ p w, v.IsLeftmost p w ∧ .unsupportedKind field w.kind = why) ∧
      (∀ xs ys : List Value, (Value.list (xs ++ ys)).flatten field =
        ((Value.list xs).flatten field >>= fun ss =>
          ((Value.list ys).flatten field).map (ss ++ ·))) ∧
      (∀ (n : Nat) (v : Value), ((fun u => .list [u])^[n] v).flatten field = v.flatten field) ∧
      (∀ v w : Value, Relation.EqvGen Regroups v w → v.flatten field = w.flatten field) ∧
      ∀ (v : Value) ss, v.flatten field = .ok ss → (ofTexts ss).flatten field = .ok ss := by
  refine ⟨fun v => ?_, fun v ss => flatten_eq_ok_iff field, fun v why => flatten_eq_error_iff field,
    fun xs ys => ?_, fun n v => ?_, fun v w h => ?_, fun v ss _ => flatten_ofTexts field ss⟩
  · constructor
    · rintro ⟨ss, hss⟩
      exact ((flatten_eq_ok_iff field).1 hss).1
    · intro h
      exact ⟨v.leaves, (flatten_eq_ok_iff field).2 ⟨h, lists_leaves v⟩⟩
  · rw [flatten, flatten, flatten]
    exact flattenAll_append field xs ys
  · induction n with
    | zero => rfl
    | succ n ih => rw [Function.iterate_succ_apply', flatten_list_singleton, ih]
  · induction h with
    | rel v w h => exact h.flatten_eq field
    | refl v => rfl
    | symm v w h ih => exact ih.symm
    | trans u v w h h' ih ih' => exact ih.trans ih'

/-- Three texts in lists of different depths, with an empty list among them. -/
def unevenList : Value :=
  .list [.list [.text "a", .list []], .list [.list [.list [.text "b"]]], .text "c"]

/-- The same texts with the first two grouped in another way. -/
def regroupedList : Value :=
  .list [.text "a", .list [], .list [.list [.list [.text "b"]]], .text "c"]

theorem flatten_lossless_uneven :
    unevenList.flatten "k" = .ok ["a", "b", "c"] ∧
      unevenList.Lists ["a", "b", "c"] ∧
      Relation.EqvGen Regroups regroupedList unevenList ∧
      regroupedList.flatten "k" = .ok ["a", "b", "c"] ∧
      (ofTexts ["a", "b", "c"]).flatten "k" = .ok ["a", "b", "c"] := by
  obtain ⟨-, hok, -, -, -, hregroup, hagain⟩ := flatten_lossless "k"
  have hflat : unevenList.flatten "k" = .ok ["a", "b", "c"] := rfl
  have hrel : Relation.EqvGen Regroups regroupedList unevenList :=
    .rel _ _ (.gather [] [.text "a", .list []] [.list [.list [.list [.text "b"]]], .text "c"])
  exact ⟨hflat, ((hok _ _).1 hflat).2, hrel, (hregroup _ _ hrel).trans hflat, hagain _ _ hflat⟩

end JobFile.Value
