import JobFile.Entries
import JobFile.Value.Basic

/-!
# Values inside values

* `Value.Within`     : one value stands inside another one;
* `Value.Doubleless` : no double stands inside a value;
* `Value.Distinct`   : no map inside a value repeats a key;
* `Value.nesting`    : how many lists and maps are nested in a value.

What each of the last three says of a list or a map follows from what it says of the values that
stand directly in it.
-/

namespace JobFile

namespace Value

/-- A value stands inside another one, through the items of lists and the values of maps. -/
inductive Within (w : Value) : Value → Prop
  | here : Within w w
  | item {vs : List Value} {v : Value} (hv : v ∈ vs) (h : Within w v) : Within w (.list vs)
  | entry {es : List (String × Value)} {e : String × Value} (he : e ∈ es) (h : Within w e.2) :
    Within w (.map es)

/-- No double stands inside the value. -/
def Doubleless (v : Value) : Prop := ∀ w, Within w v → w.kind ≠ .double

/-- No map inside the value repeats a key. -/
def Distinct (v : Value) : Prop := ∀ es : Entries Value, Within (.map es) v → es.keys.Nodup

theorem doubleless_list_iff {vs : List Value} :
    (Value.list vs).Doubleless ↔ ∀ v ∈ vs, v.Doubleless := by
  constructor
  · intro h v hv w hw
    exact h w (.item hv hw)
  · rintro h w (_ | ⟨hv, hw⟩)
    · nofun
    · exact h _ hv w hw

theorem doubleless_map_iff {es : Entries Value} :
    (Value.map es).Doubleless ↔ ∀ e ∈ es, e.2.Doubleless := by
  constructor
  · intro h e he w hw
    exact h w (.entry he hw)
  · rintro h w (_ | _ | ⟨he, hw⟩)
    · nofun
    · exact h _ he w hw

theorem distinct_list_iff {vs : List Value} :
    (Value.list vs).Distinct ↔ ∀ v ∈ vs, v.Distinct := by
  constructor
  · intro h v hv es hes
    exact h es (.item hv hes)
  · rintro h es (_ | ⟨hv, hes⟩)
    exact h _ hv es hes

theorem distinct_map_iff {es : Entries Value} :
    (Value.map es).Distinct ↔ es.keys.Nodup ∧ ∀ e ∈ es, e.2.Distinct := by
  constructor
  · intro h
    exact ⟨h es .here, fun e he fs hfs => h fs (.entry he hfs)⟩
  · rintro ⟨hkeys, hes⟩ fs (_ | _ | ⟨he, hfs⟩)
    · exact hkeys
    · exact hes _ he fs hfs

mutual
/-- How many lists and maps are nested in a value. -/
def nesting : Value → Nat
  | .list vs => itemsNesting vs + 1
  | .map es => entriesNesting es + 1
  | _ => 0
/-- How many are nested in one of several values, at most. -/
def itemsNesting : List Value → Nat
  | [] => 0
  | v :: vs => max v.nesting (itemsNesting vs)
/-- How many are nested in the value of an entry, at most. -/
def entriesNesting : List (String × Value) → Nat
  | [] => 0
  | (_, v) :: es => max v.nesting (entriesNesting es)
end

variable {depth : Nat}

theorem itemsNesting_le_iff {vs : List Value} :
    itemsNesting vs ≤ depth ↔ ∀ v ∈ vs, v.nesting ≤ depth := by
  induction vs with
  | nil => simp [itemsNesting]
  | cons v vs ih => rw [itemsNesting, Nat.max_le, ih, List.forall_mem_cons]

theorem entriesNesting_le_iff {es : Entries Value} :
    entriesNesting es ≤ depth ↔ ∀ e ∈ es, e.2.nesting ≤ depth := by
  induction es with
  | nil => simp [entriesNesting]
  | cons e es ih =>
    obtain ⟨k, v⟩ := e
    rw [entriesNesting, Nat.max_le, ih, List.forall_mem_cons]

end Value

end JobFile
