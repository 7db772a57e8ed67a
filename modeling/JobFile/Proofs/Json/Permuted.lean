import Mathlib.Data.List.Pairwise
import Mathlib.Data.List.Perm.Basic
import JobFile.Json.Decode
import JobFile.Proofs.Json.Members

/-!
# Members in another order

* `Members.Permuted`  : the same members in another order, none of which repeats a key;
* `Members.gather`    : goes through members up to the end of their object, or to the first that
  cannot be taken;
* `Members.Permuted.gather_eq` : it makes no difference in which order, if members of different keys
  can be taken either way round;
* `Json.insert_comm`, `Json.insertAll_put` : sorted members can be put in place either way round;
* `Reading.toOption_decodeJsonMembers` : JSON members are gathered.

Only what is decoded is compared, and whether anything is.  Of two faults the one that is read first
is reported, so the error may be another.
-/

namespace JobFile

/-! ## Results without their errors -/

section

variable {ε α β : Type}

theorem toOption_bind (x : Except ε α) (next : α → Except ε β) :
    (x >>= next).toOption = x.toOption.bind fun a => (next a).toOption := by
  cases x <;> rfl

theorem toOption_map (x : Except ε α) (f : α → β) :
    (x.map f).toOption = x.toOption.map f := by
  cases x <;> rfl

/-- Two results without their errors are the same if the same things come of them. -/
theorem ok_iff_of_toOption_eq {ε' : Type} {x : Except ε α} {y : Except ε' α}
    (h : x.toOption = y.toOption) (a : α) : x = .ok a ↔ y = .ok a := by
  cases x <;> cases y <;> simp_all [Except.toOption]

end

/-! ## Members as a list -/

namespace Members

/-- The keys and the values of members.  A key that denotes nothing is absent. -/
def entries : Members → List (Option String × Reading)
  | .member key value tail => (key, value) :: tail.entries
  | .close | .broken => []

/-- Is the closing brace found? -/
def closed : Members → Bool
  | .member _ _ tail => tail.closed
  | .close => true
  | .broken => false

/-- The keys that denote something. -/
def keys (ms : Members) : List String := ms.entries.filterMap Prod.fst

/-- The same members in another order, none of which repeats a key. -/
structure Permuted (ms ns : Members) : Prop where
  entries : ms.entries.Perm ns.entries
  closed : ms.closed = ns.closed
  distinct : ms.keys.Nodup

variable {σ : Type} (take : String → Reading → σ → Option σ)

/-- Takes members one after the other up to the end of their object. -/
def gather (s : σ) : Members → Option σ
  | .close => some s
  | .broken | .member none _ _ => none
  | .member (some key) value tail => (take key value s).bind fun t => tail.gather t

/-- Takes one more member, if all went well so far. -/
def takeNext (s : Option σ) (e : Option String × Reading) : Option σ :=
  s.bind fun s => e.1.bind fun key => take key e.2 s

theorem foldl_takeNext_none (es : List (Option String × Reading)) :
    es.foldl (takeNext take) none = none := by
  induction es with
  | nil => rfl
  | cons e es ih => exact ih

theorem gather_eq_foldl : ∀ (ms : Members) (s : σ),
    ms.gather take s = if ms.closed then ms.entries.foldl (takeNext take) (some s) else none
  | .close, _ | .broken, _ => rfl
  | .member none value tail, s => by
    have hnone := foldl_takeNext_none take tail.entries
    show none = if tail.closed then tail.entries.foldl (takeNext take) none else none
    rw [hnone, ite_self]
  | .member (some key) value tail, s => by
    show (take key value s).bind _ =
      if tail.closed then tail.entries.foldl (takeNext take) (take key value s) else none
    cases take key value s with
    | none => rw [foldl_takeNext_none, ite_self, Option.bind_none]
    | some t => exact gather_eq_foldl tail t

/-- Members of different keys can be taken either way round. -/
def Commutes : Prop :=
  ∀ k k' v v' s, k ≠ k' → (take k v s).bind (take k' v') = (take k' v' s).bind (take k v)

variable {take}

theorem Commutes.takeNext (h : Commutes take) {e f : Option String × Reading}
    (hkeys : ∀ k, e.1 = some k → f.1 ≠ some k) (s : Option σ) :
    takeNext take (takeNext take s e) f = takeNext take (takeNext take s f) e := by
  obtain ⟨key, v⟩ := e
  obtain ⟨key', v'⟩ := f
  cases s with
  | none => rfl
  | some s =>
    cases key with
    | none => simp [Members.takeNext]
    | some k =>
      cases key' with
      | none => simp [Members.takeNext]
      | some k' =>
        have hne : k ≠ k' := fun heq => hkeys k rfl (congrArg some heq.symm)
        exact h k k' v v' s hne

/-- Of members that repeat no key, two different ones have different keys. -/
theorem Permuted.keys_ne {ms ns : Members} (h : ms.Permuted ns)
    {e f : Option String × Reading} (he : e ∈ ms.entries) (hf : f ∈ ms.entries) (hne : e ≠ f)
    (k : String) (hk : e.1 = some k) : f.1 ≠ some k := by
  have hpairs := List.pairwise_filterMap.1 h.distinct
  have hsymm : Std.Symm fun a b : Option String × Reading =>
      ∀ k, a.1 = some k → ∀ k', b.1 = some k' → k ≠ k' :=
    ⟨fun a b hab k hk k' hk' => (hab k' hk' k hk).symm⟩
  intro hk'
  exact hpairs.forall he hf hne k hk k hk' rfl

/-- **Members can be gathered in any order**, if members of different keys can be taken either way
round. -/
theorem Permuted.gather_eq (hcomm : Commutes take) {ms ns : Members} (h : ms.Permuted ns) (s : σ) :
    ms.gather take s = ns.gather take s := by
  have hfold : ms.entries.foldl (Members.takeNext take) (some s) =
      ns.entries.foldl (Members.takeNext take) (some s) := by
    refine h.entries.foldl_eq' (fun e he f hf t => ?_) (some s)
    by_cases heq : e = f
    · rw [heq]
    · exact (hcomm.takeNext (h.keys_ne he hf heq) t)
  rw [gather_eq_foldl, gather_eq_foldl, h.closed, hfold]

end Members

/-! ## Sorted members -/

namespace Json

variable {α : Type} {k k' : String}

theorem insert_comm_of_lt (h : k < k') (v v' : α) (es : List (String × α)) :
    insert k v (insert k' v' es) = insert k' v' (insert k v es) := by
  have hne : k ≠ k' := fun heq => String.lt_irrefl k' (heq ▸ h)
  have hnlt : ¬k' < k := fun hlt => String.lt_irrefl k (String.lt_trans h hlt)
  induction es with
  | nil => simp [insert, h, hnlt, hne.symm]
  | cons e es ih =>
    obtain ⟨l, w⟩ := e
    -- The smaller key is put before the head wherever the greater one is.
    have hbefore : k' < l → k < l := String.lt_trans h
    have hplace : l = k' → k < l := fun heq => heq ▸ h
    grind [insert]

/-- Sorted members can be put in place either way round. -/
theorem insert_comm (hne : k ≠ k') (v v' : α) (es : List (String × α)) :
    insert k v (insert k' v' es) = insert k' v' (insert k v es) := by
  rcases Std.lt_trichotomy k k' with h | h | h
  · exact insert_comm_of_lt h v v' es
  · exact absurd h hne
  · exact (insert_comm_of_lt h v' v es).symm

/-- Of two members with one key the later one stays. -/
theorem insert_insert (k : String) (v v' : α) (es : List (String × α)) :
    insert k v (insert k v' es) = insert k v es := by
  induction es with
  | nil => simp [insert]
  | cons e es ih =>
    obtain ⟨l, w⟩ := e
    grind [insert]

/-- A member can be put in place after others that do not have its key. -/
theorem insertAll_insert {es : Entries α} (h : k ∉ es.keys) (v : α) (before : List (String × α)) :
    insertAll (insert k v before) es = insert k v (insertAll before es) := by
  induction es generalizing before with
  | nil => rfl
  | cons e es ih =>
    obtain ⟨l, w⟩ := e
    have hne : k ≠ l := fun heq => h (heq ▸ List.mem_cons_self)
    have hrest : k ∉ Entries.keys es := fun hmem => h (List.mem_cons_of_mem l hmem)
    rw [insertAll, insertAll, insert_comm (Ne.symm hne), ih hrest]

/-- Entries sort in the same way, whether a value is put before or after. -/
theorem insertAll_put {es : Entries α} (h : es.keys.Nodup) (v : α) (before : List (String × α)) :
    insertAll before (Entries.put k v es) = insert k v (insertAll before es) := by
  induction es generalizing before with
  | nil => rfl
  | cons e es ih =>
    obtain ⟨l, w⟩ := e
    obtain ⟨hnew, hrest⟩ := List.nodup_cons.1 h
    rw [Entries.put]
    split
    · rename_i heq
      subst heq
      rw [insertAll, insertAll, insertAll_insert hnew, insertAll_insert hnew, insert_insert]
    · rw [insertAll, insertAll, ih hrest]

/-- A member that has been put in place is found there. -/
theorem lookup_insert (k : String) (v : α) (es : List (String × α)) :
    (insert k v es).lookup k = some v := by
  induction es with
  | nil => simp [insert]
  | cons e es ih =>
    obtain ⟨l, w⟩ := e
    unfold insert
    split
    · simp
    · split
      · simp
      · rename_i hne
        rw [List.lookup_cons, beq_false_of_ne hne]
        exact ih

/-- Any other member is found as before. -/
theorem lookup_insert_of_ne {k l : String} (hne : l ≠ k) (v : α) (es : List (String × α)) :
    (insert k v es).lookup l = es.lookup l := by
  induction es with
  | nil => rw [insert, List.lookup_cons, beq_false_of_ne hne]
  | cons e es ih =>
    obtain ⟨m, w⟩ := e
    unfold insert
    split
    · rw [List.lookup_cons, beq_false_of_ne hne]
    · split
      · rename_i heq
        rw [List.lookup_cons, List.lookup_cons, ← heq, beq_false_of_ne hne]
      · rw [List.lookup_cons, List.lookup_cons, ih]

end Json

namespace Reading

/-- Puts a member in place, if it is decoded. -/
def takeJson (key : String) (value : Reading) (before : List (String × Json)) :
    Option (List (String × Json)) :=
  value.decodeJson.toOption.map fun v => Json.insert key v before

theorem takeJson_commutes : Members.Commutes takeJson := by
  intro k k' v v' before hne
  unfold takeJson
  cases v.decodeJson.toOption <;> cases v'.decodeJson.toOption <;>
    simp [Json.insert_comm hne]

theorem toOption_decodeJsonMembers : ∀ (ms : Members) (before : List (String × Json)),
    (decodeJsonMembers before ms).toOption = ms.gather takeJson before
  | .close, _ | .broken, _ | .member none _ _, _ => rfl
  | .member (some key) value tail, before => by
    rw [decodeJsonMembers, toOption_bind, Members.gather, takeJson, Option.bind_map]
    exact congrArg _ (funext fun v => toOption_decodeJsonMembers tail _)

end Reading

end JobFile
