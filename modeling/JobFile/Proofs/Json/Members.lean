import JobFile.Entries
import JobFile.Json.Basic
import Mathlib.Data.List.Induction

/-!
# Members put in place

* `Entries.Ascending`  : the keys of entries ascend, so none of them is repeated;
* `Json.ascending_insert`, `Json.insert_append` : inserting keeps this, and a key beyond all others
  goes to the end;
* `Json.insertAll`     : inserts members one after the other, with the same facts about it;
* `Entries.nodup_put`, `Entries.put_append` : putting a value repeats no key, and a new one goes to
  the end;
* `Entries.Merges`     : of a key that is repeated the first place and the last value are kept;
* `Entries.merges_iff` : this is what comes of putting entries one after the other.
-/

namespace JobFile

variable {α : Type}

/-- The keys ascend, so none is repeated. -/
def Entries.Ascending (es : Entries α) : Prop := es.Pairwise fun a b => a.1 < b.1

theorem Entries.Ascending.nodup {es : Entries α} (h : es.Ascending) : es.keys.Nodup := by
  refine List.pairwise_map.2 (h.imp fun {a b} hab => ?_)
  intro heq
  rw [heq] at hab
  exact String.lt_irrefl _ hab

/-! ## Sorted members -/

namespace Json

variable (key : String) (value : α) {es : Entries α}

theorem mem_insert {e : String × α} (h : e ∈ insert key value es) :
    e = (key, value) ∨ e ∈ es := by
  induction es with
  | nil => exact .inl (List.mem_singleton.1 h)
  | cons e' es ih =>
    obtain ⟨k, v⟩ := e'
    unfold insert at h
    split at h
    · exact List.mem_cons.1 h
    · split at h
      · rcases List.mem_cons.1 h with rfl | h
        · exact .inl rfl
        · exact .inr (List.mem_cons_of_mem _ h)
      · rcases List.mem_cons.1 h with rfl | h
        · exact .inr List.mem_cons_self
        · exact (ih h).imp id (List.mem_cons_of_mem _)

theorem mem_insert_self : (key, value) ∈ insert key value es := by
  induction es with
  | nil => exact List.mem_cons_self
  | cons e es ih =>
    obtain ⟨k, v⟩ := e
    unfold insert
    split
    · exact List.mem_cons_self
    · split
      · exact List.mem_cons_self
      · exact List.mem_cons_of_mem _ ih

theorem mem_insert_of_ne {e : String × α} (hne : e.1 ≠ key) (h : e ∈ es) :
    e ∈ insert key value es := by
  induction es with
  | nil => cases h
  | cons e' es ih =>
    obtain ⟨k, v⟩ := e'
    unfold insert
    split
    · exact List.mem_cons_of_mem _ h
    · split
      · rename_i heq
        rcases List.mem_cons.1 h with rfl | h
        · exact absurd heq.symm hne
        · exact List.mem_cons_of_mem _ h
      · rcases List.mem_cons.1 h with rfl | h
        · exact List.mem_cons_self
        · exact List.mem_cons_of_mem _ (ih h)

theorem mem_keys_insert {k : String} :
    k ∈ Entries.keys (insert key value es) ↔ k = key ∨ k ∈ es.keys := by
  induction es with
  | nil => simp [insert, Entries.keys]
  | cons e es ih =>
    obtain ⟨k', v⟩ := e
    simp only [Entries.keys] at ih ⊢
    unfold insert
    split
    · simp
    · split
      · rename_i heq
        simp [heq]
      · simp only [List.map_cons, List.mem_cons, ih]
        grind

/-- Inserting a member keeps the keys ascending. -/
theorem ascending_insert (h : es.Ascending) : Entries.Ascending (insert key value es) := by
  induction es with
  | nil => exact List.pairwise_singleton _ _
  | cons e es ih =>
    obtain ⟨k, v⟩ := e
    obtain ⟨hfirst, hrest⟩ := List.pairwise_cons.1 h
    unfold insert
    split
    · rename_i hlt
      refine List.pairwise_cons.2 ⟨fun e he => ?_, h⟩
      rcases List.mem_cons.1 he with rfl | he
      · exact hlt
      · exact String.lt_trans hlt (hfirst e he)
    · rename_i hnlt
      split
      · rename_i heq
        subst heq
        exact List.pairwise_cons.2 ⟨hfirst, hrest⟩
      · rename_i hne
        refine List.pairwise_cons.2 ⟨fun e he => ?_, ih hrest⟩
        rcases mem_insert key value he with rfl | he
        · exact Std.lt_of_le_of_ne (Std.not_lt.1 hnlt) (Ne.symm hne)
        · exact hfirst e he

/-- A member whose key is beyond all others goes to the end. -/
theorem insert_append (h : ∀ e ∈ es, e.1 < key) :
    insert key value es = es ++ [(key, value)] := by
  induction es with
  | nil => rfl
  | cons e es ih =>
    obtain ⟨k, v⟩ := e
    have hk : k < key := h (k, v) List.mem_cons_self
    have hne : key ≠ k := by
      rintro rfl
      exact String.lt_irrefl _ hk
    have hnlt : ¬key < k := fun hlt => String.lt_irrefl _ (String.lt_trans hk hlt)
    rw [insert, if_neg hnlt, if_neg hne, ih fun e he => h e (List.mem_cons_of_mem _ he),
      List.cons_append]

/-- Inserts members one after the other. -/
def insertAll (before : List (String × α)) : List (String × α) → List (String × α)
  | [] => before
  | (k, v) :: ms => insertAll (insert k v before) ms

theorem insertAll_append (before ms ns : List (String × α)) :
    insertAll before (ms ++ ns) = insertAll (insertAll before ms) ns := by
  induction ms generalizing before with
  | nil => rfl
  | cons m ms ih => exact ih _

theorem mem_insertAll {e : String × α} {before ms : Entries α} (h : e ∈ insertAll before ms) :
    e ∈ before ∨ e ∈ ms := by
  induction ms generalizing before with
  | nil => exact .inl h
  | cons m ms ih =>
    obtain ⟨k, v⟩ := m
    rcases ih h with h | h
    · rcases mem_insert k v h with rfl | h
      · exact .inr List.mem_cons_self
      · exact .inl h
    · exact .inr (List.mem_cons_of_mem _ h)

theorem mem_keys_insertAll {k : String} {before ms : Entries α} :
    k ∈ Entries.keys (insertAll before ms) ↔ k ∈ before.keys ∨ k ∈ ms.keys := by
  induction ms generalizing before with
  | nil => simp [insertAll, Entries.keys]
  | cons m ms ih =>
    obtain ⟨k', v⟩ := m
    rw [insertAll, ih, mem_keys_insert]
    simp only [Entries.keys, List.map_cons, List.mem_cons]
    grind

theorem ascending_insertAll {before ms : Entries α} (h : before.Ascending) :
    Entries.Ascending (insertAll before ms) := by
  induction ms generalizing before with
  | nil => exact h
  | cons m ms ih => exact ih (ascending_insert m.1 m.2 h)

/-- Members that ascend already stay as they are. -/
theorem insertAll_of_ascending {before ms : Entries α} (h : Entries.Ascending (before ++ ms)) :
    insertAll before ms = before ++ ms := by
  induction ms generalizing before with
  | nil => exact (List.append_nil before).symm
  | cons m ms ih =>
    obtain ⟨k, v⟩ := m
    have hlast : ∀ e ∈ before, e.1 < k := fun e he =>
      (List.pairwise_append.1 h).2.2 e he (k, v) List.mem_cons_self
    rw [List.append_cons] at h ⊢
    rw [insertAll, insert_append k v hlast, ih h]

variable {β : Type} (f : α → β)

theorem insert_map (key : String) (value : α) (es : List (String × α)) :
    insert key (f value) (es.map fun (k, v) => (k, f v)) =
      (insert key value es).map fun (k, v) => (k, f v) := by
  induction es with
  | nil => rfl
  | cons e es ih =>
    obtain ⟨k, v⟩ := e
    simp only [List.map_cons, insert, ih]
    split
    · rfl
    · split <;> rfl

theorem insertAll_map (before ms : List (String × α)) :
    insertAll (before.map fun (k, v) => (k, f v)) (ms.map fun (k, v) => (k, f v)) =
      (insertAll before ms).map fun (k, v) => (k, f v) := by
  induction ms generalizing before with
  | nil => rfl
  | cons m ms ih =>
    obtain ⟨k, v⟩ := m
    rw [List.map_cons, insertAll, insertAll, insert_map, ih]

end Json

/-! ## Entries in order of arrival -/

namespace Entries

variable {key : String} {value : α} {es : Entries α}

theorem mem_put {e : String × α} (h : e ∈ put key value es) :
    e = (key, value) ∨ e ∈ es := by
  induction es with
  | nil => exact .inl (List.mem_singleton.1 h)
  | cons e' es ih =>
    obtain ⟨k, v⟩ := e'
    unfold put at h
    split at h
    · rename_i heq
      rcases List.mem_cons.1 h with rfl | h
      · exact .inl (by rw [heq])
      · exact .inr (List.mem_cons_of_mem _ h)
    · rcases List.mem_cons.1 h with rfl | h
      · exact .inr List.mem_cons_self
      · exact (ih h).imp id (List.mem_cons_of_mem _)

/-- Putting a value repeats no key. -/
theorem nodup_put (h : es.keys.Nodup) : (put key value es).keys.Nodup := by
  rw [keys_put]
  split
  · exact h
  · rename_i hnew
    refine List.nodup_append.2 ⟨h, by simp, ?_⟩
    intro k hk k' hk'
    rw [List.mem_singleton.1 hk']
    rintro rfl
    exact hnew hk

/-- A new key goes to the end. -/
theorem put_append (h : key ∉ es.keys) : put key value es = es ++ [(key, value)] := by
  induction es with
  | nil => rfl
  | cons e es ih =>
    obtain ⟨k, v⟩ := e
    have hk : k ≠ key := by
      rintro rfl
      exact h List.mem_cons_self
    rw [put, if_neg hk, ih fun hmem => h (List.mem_cons_of_mem _ hmem), List.cons_append]

theorem get?_cons (k key : String) (value : α) (es : Entries α) :
    get? k ((key, value) :: es) = if k = key then some value else es.get? k := by
  unfold get?
  by_cases h : k = key
  · simp [h]
  · rw [List.lookup_cons, beq_false_of_ne h, if_neg h]

theorem get?_put (k key : String) (value : α) (es : Entries α) :
    get? k (put key value es) = if k = key then some value else es.get? k := by
  induction es with
  | nil => simp [put, get?_cons]
  | cons e es ih =>
    obtain ⟨l, w⟩ := e
    by_cases hl : l = key <;> by_cases hk : k = l <;> simp_all [put, get?_cons]

theorem get?_eq_none {k : String} (h : k ∉ es.keys) : es.get? k = none := by
  induction es with
  | nil => rfl
  | cons e es ih =>
    obtain ⟨l, w⟩ := e
    simp only [keys, List.map_cons, List.mem_cons, not_or] at h
    simp [get?_cons, h.1, ih h.2]

/-- Entries that repeat no key are told by their keys and the value of each. -/
theorem ext_get? {fs : Entries α} (hkeys : es.keys = fs.keys) (hnodup : es.keys.Nodup)
    (hget : ∀ k, es.get? k = fs.get? k) : es = fs := by
  induction es generalizing fs with
  | nil => exact (List.map_eq_nil_iff.1 hkeys.symm).symm
  | cons e es ih =>
    obtain ⟨k, v⟩ := e
    cases fs with
    | nil => cases hkeys
    | cons f fs =>
      obtain ⟨l, w⟩ := f
      simp only [keys, List.map_cons, List.cons.injEq] at hkeys
      obtain ⟨rfl, hkeys⟩ := hkeys
      obtain ⟨hnew, hnodup⟩ := List.nodup_cons.1 hnodup
      have hv := hget k
      simp only [get?_cons, if_true, Option.some.injEq] at hv
      subst hv
      have hrest : ∀ l, get? l es = get? l fs := by
        intro l
        have hl := hget l
        by_cases hlk : l = k
        · subst hlk
          have hnew' : l ∉ keys fs := by simpa only [keys, ← hkeys] using hnew
          rw [get?_eq_none hnew, get?_eq_none hnew']
        · simpa [get?_cons, hlk] using hl
      rw [ih hkeys hnodup hrest]

/-! ## Repeated keys -/

/-- Of a key that is repeated the first place and the last value are kept, and all else is as it
was. -/
structure Merges (es fs : Entries α) : Prop where
  keys : es.keys = fs.keys.eraseDups
  values : ∀ k, es.get? k = get? k fs.reverse

/-- Puts entries one after the other. -/
def putAll (before fs : Entries α) : Entries α := fs.foldl (fun es e => es.put e.1 e.2) before

theorem mem_putAll {e : String × α} {before fs : Entries α} (h : e ∈ putAll before fs) :
    e ∈ before ∨ e ∈ fs := by
  induction fs generalizing before with
  | nil => exact .inl h
  | cons f fs ih =>
    rcases ih h with h | h
    · rcases mem_put h with rfl | h
      · exact .inr List.mem_cons_self
      · exact .inl h
    · exact .inr (List.mem_cons_of_mem _ h)

theorem nodup_putAll {before : Entries α} (fs : Entries α) (h : before.keys.Nodup) :
    (putAll before fs).keys.Nodup := by
  induction fs generalizing before with
  | nil => exact h
  | cons f fs ih => exact ih (nodup_put h)

theorem putAll_merges (fs : Entries α) : (putAll [] fs).Merges fs := by
  -- The last entry decides, so the induction takes it off.
  induction fs using List.reverseRecOn with
  | nil => exact ⟨rfl, fun _ => rfl⟩
  | append_singleton fs f ih =>
    obtain ⟨key, value⟩ := f
    have hput : putAll [] (fs ++ [(key, value)]) = (putAll [] fs).put key value := by
      simp [putAll]
    have hkeys : Entries.keys (fs ++ [(key, value)]) = Entries.keys fs ++ [key] := by
      simp [Entries.keys]
    refine ⟨?_, fun k => ?_⟩
    · rw [hput, hkeys, keys_put, ih.keys, List.eraseDups_append]
      by_cases hmem : key ∈ Entries.keys fs <;>
        simp [hmem, List.cons_removeAll, List.eraseDups_cons]
    · rw [hput, get?_put, ih.values k, List.reverse_append]
      exact (get?_cons k key value _).symm

/-- **Entries that are put one after the other keep the first place and the last value of each
key.** -/
theorem merges_iff {fs : Entries α} : es.Merges fs ↔ es = putAll [] fs := by
  constructor
  · intro h
    have hput := putAll_merges fs
    have hkeys : es.keys = (putAll [] fs).keys := h.keys.trans hput.keys.symm
    have hnodup : (putAll [] fs).keys.Nodup := nodup_putAll fs List.nodup_nil
    exact ext_get? hkeys (hkeys ▸ hnodup) fun k => (h.values k).trans (hput.values k).symm
  · rintro rfl
    exact putAll_merges fs

theorem Merges.nodup {fs : Entries α} (h : es.Merges fs) : es.keys.Nodup := by
  rw [merges_iff.1 h]
  exact nodup_putAll fs List.nodup_nil

theorem Merges.mem {fs : Entries α} (h : es.Merges fs) {e : String × α} (he : e ∈ es) :
    e ∈ fs := by
  rw [merges_iff.1 h] at he
  exact (mem_putAll he).resolve_left List.not_mem_nil

/-- A key that entries do not repeat is not among those before it. -/
theorem not_mem_of_nodup {key : String} {value : α} {before fs : Entries α}
    (h : (keys (before ++ (key, value) :: fs)).Nodup) : key ∉ before.keys := by
  simp only [keys, List.map_append, List.map_cons] at h
  intro hmem
  exact (List.nodup_append.1 h).2.2 key hmem key List.mem_cons_self rfl

end Entries

end JobFile
