import JobFile.Proofs.Description.Agreement
import JobFile.Proofs.Value.Inside

/-!
# What stands inside a value

* `Value.occurrences`     : what stands inside a value, each with its key, in the order in which it
  is met from the outside in and from left to right;
* `Occurrence.Offends`    : a double, or a map inside a list;
* `firstOffence`          : the refusal of the first that offends;
* `Value.checkShape_eq`, `Value.checkItem_eq` : this is the check of values, outside lists and in
  them;
* `Value.assign_refuses_first_offence` : a value is written if nothing offends in it, and the first
  that does is to blame if it is not.

A map inside a list is met before what stands in it, so it is refused even if a double is all that
it holds.  The items of a list have no keys of their own: they go by the key of the list.
-/

namespace JobFile

/-- A value that stands inside another one. -/
structure Occurrence where
  /-- The key of the innermost map entry around it, or that of the whole value. -/
  key : String
  /-- Does it stand inside a list? -/
  listed : Bool
  value : Value

/-- Can the value not be written where it stands?  Doubles cannot be written at all. -/
def Occurrence.Offends (o : Occurrence) : Prop :=
  o.value.kind = .double ∨ o.listed = true ∧ o.value.kind = .map

instance (o : Occurrence) : Decidable o.Offends := inferInstanceAs (Decidable (_ ∨ _))

namespace Occurrence

/-- Only doubles and maps offend. -/
theorem Offends.word {o : Occurrence} (h : o.Offends) :
    o.value.kind.word ∈ ["float", "map"] := by
  rcases h with hdouble | ⟨-, hmap⟩
  · rw [hdouble]
    decide
  · rw [hmap]
    decide

theorem not_offends_list (key : String) (listed : Bool) (vs : List Value) :
    ¬(⟨key, listed, .list vs⟩ : Occurrence).Offends := by
  simp [Offends, Value.kind]

theorem not_offends_map (key : String) (es : List (String × Value)) :
    ¬(⟨key, false, .map es⟩ : Occurrence).Offends := by
  simp [Offends, Value.kind]

end Occurrence

namespace Value

mutual
/-- What stands inside a value under the given key, itself first. -/
def occurrences (key : String) (listed : Bool) : Value → List Occurrence
  | .list items => ⟨key, listed, .list items⟩ :: itemOccurrences key items
  | .map es => ⟨key, listed, .map es⟩ :: entryOccurrences listed es
  | v => [⟨key, listed, v⟩]
/-- What stands inside the items of a list under the given key. -/
def itemOccurrences (key : String) : List Value → List Occurrence
  | [] => []
  | v :: vs => v.occurrences key true ++ itemOccurrences key vs
/-- What stands inside the values of a map, each under its own key. -/
def entryOccurrences (listed : Bool) : List (String × Value) → List Occurrence
  | [] => []
  | (k, v) :: es => v.occurrences k listed ++ entryOccurrences listed es
end

theorem mem_occurrences_self (key : String) (listed : Bool) (v : Value) :
    ⟨key, listed, v⟩ ∈ v.occurrences key listed := by
  cases v <;> exact List.mem_cons_self

theorem mem_itemOccurrences {key : String} {vs : List Value} {o : Occurrence} :
    o ∈ itemOccurrences key vs ↔ ∃ v ∈ vs, o ∈ v.occurrences key true := by
  induction vs with
  | nil => simp [itemOccurrences]
  | cons v vs ih => simp [itemOccurrences, ih]

theorem mem_entryOccurrences {listed : Bool} {es : List (String × Value)} {o : Occurrence} :
    o ∈ entryOccurrences listed es ↔ ∃ e ∈ es, o ∈ e.2.occurrences e.1 listed := by
  induction es with
  | nil => simp [entryOccurrences]
  | cons e es ih =>
    obtain ⟨k, v⟩ := e
    simp [entryOccurrences, ih]

end Value

/-! ## The first to offend -/

/-- The refusal of the first occurrence that offends. -/
def firstOffence (os : List Occurrence) : Except Refusal Unit :=
  match os.find? fun o => o.Offends with
  | none => .ok ()
  | some o => .error (.unsupportedKind o.key o.value.kind)

theorem firstOffence_append (xs ys : List Occurrence) :
    firstOffence (xs ++ ys) = firstOffence xs >>= fun _ => firstOffence ys := by
  unfold firstOffence
  rw [List.find?_append]
  cases xs.find? fun o => o.Offends <;> rfl

theorem firstOffence_cons {o : Occurrence} (h : ¬o.Offends) (os : List Occurrence) :
    firstOffence (o :: os) = firstOffence os := by
  unfold firstOffence
  rw [List.find?_cons_of_neg (by simpa using h)]

theorem firstOffence_eq_ok_iff {os : List Occurrence} :
    firstOffence os = .ok () ↔ ∀ o ∈ os, ¬o.Offends := by
  unfold firstOffence
  cases h : os.find? fun o => o.Offends with
  | none => simpa using h
  | some o =>
    have hoffends : o.Offends := by simpa using List.find?_some h
    simpa using ⟨o, List.mem_of_find?_eq_some h, hoffends⟩

/-- What is refused is the first to offend. -/
theorem firstOffence_eq_error_iff {os : List Occurrence} {why : Refusal} :
    firstOffence os = .error why ↔ ∃ before o after, os = before ++ o :: after ∧
      (∀ p ∈ before, ¬p.Offends) ∧ o.Offends ∧ .unsupportedKind o.key o.value.kind = why := by
  have hfirst : firstOffence os = .error why ↔ ∃ o, (os.find? fun o => o.Offends) = some o ∧
      .unsupportedKind o.key o.value.kind = why := by
    unfold firstOffence
    cases os.find? fun o => o.Offends <;> simp
  rw [hfirst]
  constructor
  · rintro ⟨o, ho, rfl⟩
    obtain ⟨hoffends, before, after, rfl, hbefore⟩ := List.find?_eq_some_iff_append.1 ho
    exact ⟨before, o, after, rfl, by simpa using hbefore, by simpa using hoffends, rfl⟩
  · rintro ⟨before, o, after, rfl, hbefore, ho, rfl⟩
    refine ⟨o, List.find?_eq_some_iff_append.2 ⟨by simpa using ho, before, after, rfl, ?_⟩, rfl⟩
    simpa using hbefore

namespace Value

mutual
/-- The check of an item refuses the first that offends in it. -/
theorem checkItem_eq (key : String) : ∀ v : Value,
    v.checkItem key = firstOffence (v.occurrences key true)
  | .boolean _ | .integer _ | .text _ | .double _ | .map _ => rfl
  | .list items => by
    rw [checkItem, checkItems_eq key items, occurrences,
      firstOffence_cons (Occurrence.not_offends_list key true items)]
theorem checkItems_eq (key : String) : ∀ vs : List Value,
    checkItems key vs = firstOffence (itemOccurrences key vs)
  | [] => rfl
  | v :: vs => by
    rw [checkItems, checkItem_eq key v, checkItems_eq key vs, itemOccurrences, firstOffence_append]
end

mutual
/-- The check of a value by its shape refuses the first that offends in it. -/
theorem checkShape_eq : ∀ (key : String) (v : Value),
    v.checkShape key = firstOffence (v.occurrences key false)
  | _, .boolean _ | _, .integer _ | _, .text _ | _, .double _ => rfl
  | key, .list items => by
    rw [checkShape, checkItems_eq key items, occurrences,
      firstOffence_cons (Occurrence.not_offends_list key false items)]
  | key, .map es => by
    rw [checkShape, checkShapes_eq es, occurrences,
      firstOffence_cons (Occurrence.not_offends_map key es)]
theorem checkShapes_eq : ∀ es : List (String × Value),
    checkShapes es = firstOffence (entryOccurrences false es)
  | [] => rfl
  | (k, v) :: es => by
    rw [checkShapes, checkShape_eq k v, checkShapes_eq es, entryOccurrences, firstOffence_append]
end

/-! ## Inside -/

/-- A value stands inside a list that stands inside another value. -/
def WithinList (w v : Value) : Prop :=
  ∃ vs u, Within (.list vs) v ∧ u ∈ vs ∧ Within w u

/-- No double stands inside the value, and no map inside a list of it. -/
structure Renderable (v : Value) : Prop where
  no_double : ∀ w, Within w v → w.kind ≠ .double
  no_map : ∀ w, WithinList w v → w.kind ≠ .map

/-- What occurs in one value occurs in every value around it.  Inside a list it stays there. -/
theorem Within.occurrences_subset {w v : Value} (h : Within w v) :
    ∀ (key : String) (listed : Bool), ∃ k l, (listed = true → l = true) ∧
      w.occurrences k l ⊆ v.occurrences key listed := by
  induction h with
  | here => exact fun key listed => ⟨key, listed, id, List.Subset.refl _⟩
  | @item vs v hv h ih =>
    intro key listed
    -- An item is listed, whether its list is or not.
    obtain ⟨k, l, hl, hsub⟩ := ih key true
    refine ⟨k, l, fun _ => hl rfl, fun o ho => ?_⟩
    exact List.mem_cons_of_mem _ (mem_itemOccurrences.2 ⟨v, hv, hsub ho⟩)
  | @entry es e he h ih =>
    intro key listed
    obtain ⟨k, l, hl, hsub⟩ := ih e.1 listed
    refine ⟨k, l, hl, fun o ho => ?_⟩
    exact List.mem_cons_of_mem _ (mem_entryOccurrences.2 ⟨e, he, hsub ho⟩)

mutual
/-- What occurs in a value stands inside it. -/
theorem within_of_mem : ∀ (v : Value) {key : String} {listed : Bool} {o : Occurrence},
    o ∈ v.occurrences key listed →
      Within o.value v ∧ (o.listed = true → listed = true ∨ WithinList o.value v)
  | .boolean _, _, _, _ | .integer _, _, _, _ | .text _, _, _, _ | .double _, _, _, _ => by
    intro h
    cases List.mem_singleton.1 h
    exact ⟨.here, .inl⟩
  | .list vs, key, listed, o => by
    intro h
    rcases List.mem_cons.1 h with rfl | h
    · exact ⟨.here, .inl⟩
    · obtain ⟨v, hv, hin⟩ := within_of_mem_items vs h
      exact ⟨.item hv hin, fun _ => .inr ⟨vs, v, .here, hv, hin⟩⟩
  | .map es, key, listed, o => by
    intro h
    rcases List.mem_cons.1 h with rfl | h
    · exact ⟨.here, .inl⟩
    · obtain ⟨e, he, hin, hlisted⟩ := within_of_mem_entries es h
      refine ⟨.entry he hin, fun ho => (hlisted ho).imp_right ?_⟩
      rintro ⟨vs, u, hvs, hu, hw⟩
      exact ⟨vs, u, .entry he hvs, hu, hw⟩
theorem within_of_mem_items : ∀ (vs : List Value) {key : String} {o : Occurrence},
    o ∈ itemOccurrences key vs → ∃ v ∈ vs, Within o.value v
  | [], _, _ => nofun
  | v :: vs, key, o => by
    intro h
    rcases List.mem_append.1 h with h | h
    · exact ⟨v, List.mem_cons_self, (within_of_mem v h).1⟩
    · obtain ⟨u, hu, hin⟩ := within_of_mem_items vs h
      exact ⟨u, List.mem_cons_of_mem v hu, hin⟩
theorem within_of_mem_entries : ∀ (es : List (String × Value)) {listed : Bool} {o : Occurrence},
    o ∈ entryOccurrences listed es → ∃ e ∈ es,
      Within o.value e.2 ∧ (o.listed = true → listed = true ∨ WithinList o.value e.2)
  | [], _, _ => nofun
  | (k, v) :: es, listed, o => by
    intro h
    rcases List.mem_append.1 h with h | h
    · exact ⟨(k, v), List.mem_cons_self, within_of_mem v h⟩
    · obtain ⟨e, he, hin⟩ := within_of_mem_entries es h
      exact ⟨e, List.mem_cons_of_mem (k, v) he, hin⟩
end

/-- Nothing offends in a value exactly if it is renderable. -/
theorem renderable_iff (key : String) (v : Value) :
    v.Renderable ↔ ∀ o ∈ v.occurrences key false, ¬o.Offends := by
  constructor
  · rintro ⟨hdouble, hmap⟩ o ho
    obtain ⟨hin, hlisted⟩ := within_of_mem v ho
    rintro (hkind | ⟨hl, hkind⟩)
    · exact hdouble _ hin hkind
    · exact hmap _ ((hlisted hl).resolve_left Bool.false_ne_true) hkind
  · intro h
    constructor
    · intro w hw hkind
      obtain ⟨k, l, -, hsub⟩ := hw.occurrences_subset key false
      exact h _ (hsub (mem_occurrences_self k l w)) (.inl hkind)
    · rintro w ⟨vs, u, hvs, hu, hw⟩ hkind
      obtain ⟨k, l, -, hsub⟩ := hvs.occurrences_subset key false
      obtain ⟨k', l', hl', hsub'⟩ := hw.occurrences_subset k true
      have hmem : (⟨k', l', w⟩ : Occurrence) ∈ itemOccurrences k vs :=
        mem_itemOccurrences.2 ⟨u, hu, hsub' (mem_occurrences_self k' l' w)⟩
      exact h _ (hsub (List.mem_cons_of_mem _ hmem)) (.inr ⟨hl' rfl, hkind⟩)

/-! ## Writing -/

/-- What is written of a value if nothing offends in it, and what is refused if something does. -/
theorem run_assign (key : String) (v : Value) {d : Draft} (hd : d.Aligned) :
    match firstOffence (v.occurrences key false) with
    | .ok () => Script.run (v.assign key) d = .done (d.add (Entry.allItems (v.entries key)))
    | .error why => ∃ items, Script.run (v.assign key) d = .failed (d.add items) why := by
  have hagrees := assign_agrees d.context.current key v
  rw [checkShape_eq] at hagrees
  exact Script.run_of_agrees (v.assign_paired key) hd hagrees

/-- **A value is written exactly if no double stands inside it and no map inside a list of it.**  If
it is not, the first that offends is to blame, with its kind and under its own key. -/
theorem assign_refuses_first_offence (key : String) (v : Value) (d : Draft) (hd : d.Aligned) :
    ((∃ e, Script.run (v.assign key) d = .done e) ↔ v.Renderable) ∧
      (v.Renderable →
        Script.run (v.assign key) d = .done (d.add (Entry.allItems (v.entries key)))) ∧
      (¬v.Renderable → ∃ before o after items,
        v.occurrences key false = before ++ o :: after ∧ (∀ p ∈ before, ¬p.Offends) ∧
          o.Offends ∧ o.value.kind.word ∈ ["float", "map"] ∧
          Script.run (v.assign key) d =
            .failed (d.add items) (.unsupportedKind o.key o.value.kind)) := by
  have hrun := run_assign key v hd
  have hok : firstOffence (v.occurrences key false) = .ok () ↔ v.Renderable :=
    firstOffence_eq_ok_iff.trans (renderable_iff key v).symm
  cases hv : firstOffence (v.occurrences key false) with
  | ok u =>
    rw [hv] at hrun
    have hrenderable := hok.1 hv
    exact ⟨⟨fun _ => hrenderable, fun _ => ⟨_, hrun⟩⟩, fun _ => hrun,
      fun h => absurd hrenderable h⟩
  | error why =>
    rw [hv] at hrun
    obtain ⟨items, hfailed⟩ := hrun
    have hnot : ¬v.Renderable := fun h => by cases hv.symm.trans (hok.2 h)
    obtain ⟨before, o, after, hsplit, hbefore, ho, rfl⟩ := firstOffence_eq_error_iff.1 hv
    refine ⟨⟨fun ⟨e, he⟩ => ?_, fun h => absurd h hnot⟩, fun h => absurd h hnot, fun _ => ?_⟩
    · cases he.symm.trans hfailed
    · exact ⟨before, o, after, items, hsplit, hbefore, ho, ho.word, hfailed⟩

/-- A map in a list in a list, which holds a double, and another double behind it. -/
def buriedMap : Value :=
  .map [("a", .text "1"),
    ("b", .map [("c", .list [.integer 1, .list [.map [("x", .double 0.5)]]])]),
    ("d", .double 0.5)]

theorem assign_refuses_first_offence_buried :
    ({} : Draft).Aligned ∧ ¬buriedMap.Renderable ∧
      ∃ items, Script.run (buriedMap.assign "k") {} =
        .failed (({} : Draft).add items) (.unsupportedKind "c" .map) := by
  have haligned : ({} : Draft).Aligned := rfl
  obtain ⟨-, -, hblame⟩ := assign_refuses_first_offence "k" buriedMap {} haligned
  have hoffence : firstOffence (buriedMap.occurrences "k" false) =
      .error (.unsupportedKind "c" .map) := rfl
  have hnot : ¬buriedMap.Renderable := by
    intro h
    cases hoffence.symm.trans (firstOffence_eq_ok_iff.2 ((renderable_iff "k" buriedMap).1 h))
  obtain ⟨before, o, after, items, hsplit, hbefore, ho, -, hrun⟩ := hblame hnot
  have hfirst : firstOffence (buriedMap.occurrences "k" false) =
      .error (.unsupportedKind o.key o.value.kind) :=
    firstOffence_eq_error_iff.2 ⟨before, o, after, hsplit, hbefore, ho, rfl⟩
  obtain ⟨hkey, hkind⟩ : o.key = "c" ∧ o.value.kind = .map := by
    simpa using hfirst.symm.trans hoffence
  rw [hkey, hkind] at hrun
  exact ⟨haligned, hnot, items, hrun⟩

end Value

end JobFile
