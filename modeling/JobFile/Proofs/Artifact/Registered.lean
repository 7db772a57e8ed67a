import Mathlib.Data.List.Dedup
import Mathlib.Data.List.Perm.Basic
import JobFile.Proofs.Description.Agreement
import JobFile.Proofs.Json.Permuted
import JobFile.Proofs.Layout.Program
import JobFile.Proofs.Text.ByteOrder

/-!
# What has been registered

* `Registry.registerAll`  : one registration after the other;
* `Registry.Sorted`       : the artifacts ascend by name, so a name has one at most;
* `Registry.get?_registerAll` : a name has the artifact that it was registered with last;
* `Registry.Sorted.size_registerAll` : there are as many artifacts as names;
* `Registry.run_package_of_source`, `Registry.run_package_eq_unknown_iff` : what a task writes for a
  name.
-/

namespace JobFile

namespace Registry

/-- Registers artifacts under their names, one after the other. -/
def registerAll (r : Registry) (rs : List (String × Artifact)) : Registry :=
  rs.foldl (fun r (id, artifact) => r.register id artifact) r

/-- The artifacts ascend by name, so none is repeated. -/
def Sorted (r : Registry) : Prop := Entries.Ascending r.artifacts

variable {r : Registry}

theorem registerAll_append (r : Registry) (rs ss : List (String × Artifact)) :
    r.registerAll (rs ++ ss) = (r.registerAll rs).registerAll ss :=
  List.foldl_append

theorem sorted_empty : Sorted {} := List.Pairwise.nil

theorem artifacts_registerAll (r : Registry) (rs : List (String × Artifact)) :
    (r.registerAll rs).artifacts = Json.insertAll r.artifacts rs := by
  induction rs generalizing r with
  | nil => rfl
  | cons e rs ih => exact ih (r.register e.1 e.2)

theorem Sorted.registerAll (h : r.Sorted) (rs : List (String × Artifact)) :
    (r.registerAll rs).Sorted := by
  rw [Sorted, artifacts_registerAll]
  exact Json.ascending_insertAll h

/-! ## Looking up -/

theorem mem_artifacts_of_get? {id : String} {artifact : Artifact}
    (h : r.get? id = some artifact) : (id, artifact) ∈ r.artifacts := by
  obtain ⟨before, after, hsplit, -⟩ := List.lookup_eq_some_iff.1 h
  rw [hsplit]
  exact List.mem_append_right _ List.mem_cons_self

/-- An artifact is listed under a name exactly if it is found there. -/
theorem Sorted.mem_artifacts_iff (h : r.Sorted) {id : String} {artifact : Artifact} :
    (id, artifact) ∈ r.artifacts ↔ r.get? id = some artifact := by
  refine ⟨fun hmem => ?_, mem_artifacts_of_get?⟩
  obtain ⟨before, after, hsplit⟩ := List.append_of_mem hmem
  refine List.lookup_eq_some_iff.2 ⟨before, after, hsplit, fun e he => bne_iff_ne.2 ?_⟩
  have hlt : e.1 < id := by
    have hascending : Entries.Ascending (before ++ (id, artifact) :: after) := hsplit ▸ h
    exact (List.pairwise_append.1 hascending).2.2 e he _ List.mem_cons_self
  rintro rfl
  exact String.lt_irrefl _ hlt

/-- Two sorted registries are the same if they find the same. -/
theorem Sorted.ext {r' : Registry} (h : r.Sorted) (h' : r'.Sorted)
    (hget : ∀ id, r.get? id = r'.get? id) : r = r' := by
  have hperm : r.artifacts.Perm r'.artifacts := by
    refine (List.perm_ext_iff_of_nodup h.nodup.of_map h'.nodup.of_map).2 fun e => ?_
    rw [h.mem_artifacts_iff, h'.mem_artifacts_iff, hget]
  have hlists : r.artifacts = r'.artifacts :=
    hperm.eq_of_pairwise (fun a b _ _ hab hba => absurd hab (String.lt_asymm hba)) h h'
  cases r
  cases hlists
  rfl

theorem get?_register (r : Registry) (id key : String) (artifact : Artifact) :
    (r.register id artifact).get? key = if key = id then some artifact else r.get? key := by
  split
  · rename_i heq
    rw [heq]
    exact Json.lookup_insert id artifact r.artifacts
  · rename_i hne
    exact Json.lookup_insert_of_ne hne artifact r.artifacts

/-- A name has the artifact that it was registered with last. -/
theorem get?_registerAll (r : Registry) (rs : List (String × Artifact)) (id : String) :
    (r.registerAll rs).get? id = (rs.reverse.lookup id).or (r.get? id) := by
  induction rs generalizing r with
  | nil => rfl
  | cons e rs ih =>
    obtain ⟨key, artifact⟩ := e
    show ((r.register key artifact).registerAll rs).get? id = _
    rw [ih, get?_register, List.reverse_cons, List.lookup_append, Option.or_assoc,
      List.lookup_cons]
    by_cases hkey : id = key
    · rw [if_pos hkey, beq_iff_eq.2 hkey, Option.some_or]
    · rw [if_neg hkey, beq_false_of_ne hkey, List.lookup_nil, Option.none_or]

/-- There are as many artifacts as there are names. -/
theorem Sorted.size_registerAll (h : r.Sorted) (rs : List (String × Artifact)) :
    (r.registerAll rs).size = (Entries.keys (r.artifacts ++ rs)).dedup.length := by
  have hperm : (Entries.keys (r.registerAll rs).artifacts).Perm
      (Entries.keys (r.artifacts ++ rs)).dedup := by
    refine (List.perm_ext_iff_of_nodup (h.registerAll rs).nodup (List.nodup_dedup _)).2 fun id => ?_
    rw [artifacts_registerAll, Json.mem_keys_insertAll, List.mem_dedup]
    simp only [Entries.keys, List.map_append, List.mem_append]
  rw [size, ← hperm.length_eq, Entries.keys, List.length_map]

/-- What registrations come to: the artifacts of both, where the last of a name counts. -/
structure Collects (r : Registry) (rs : List (String × Artifact)) (s : Registry) : Prop where
  ascending : s.artifacts.Pairwise fun a b => Text.bytes a.1 < Text.bytes b.1
  listed : ∀ id artifact, (id, artifact) ∈ s.artifacts ↔ s.get? id = some artifact
  latest : ∀ id, s.get? id = (rs.reverse.lookup id).or (r.get? id)
  size : s.size = (Entries.keys (r.artifacts ++ rs)).dedup.length

theorem Sorted.collects (h : r.Sorted) (rs : List (String × Artifact)) :
    r.Collects rs (r.registerAll rs) where
  ascending := (h.registerAll rs).imp Text.bytes_lt_iff.2
  listed _ _ := (h.registerAll rs).mem_artifacts_iff
  latest := r.get?_registerAll rs
  size := h.size_registerAll rs

end Registry

/-! ## Writing -/

/-- Where an artifact comes from. -/
def Artifact.source? : Artifact → Option String
  | .cons source _ => source

/-- Nothing else has to be there. -/
theorem Artifact.checkRequired_eq (artifact : Artifact) :
    artifact.checkRequired Stanza.artifact.keyword =
      if artifact.source?.isSome then .ok ()
      else .error (.missingValue Stanza.artifact.keyword "source") := by
  match artifact with
  | .cons none (.cons _ (.cons _ (.cons _ .nil))) => rfl
  | .cons (some _) (.cons _ (.cons _ (.cons _ .nil))) => rfl

namespace Registry

variable {r : Registry} {d : Draft} {id : String}

/-- Inside a task, only the source of a registered artifact may be missing. -/
theorem checkPackage_in_task {artifact : Artifact} (hget : r.get? id = some artifact) :
    r.checkPackage Stanza.task.keyword id =
      if artifact.source?.isSome then .ok ()
      else .error (.missingValue Stanza.artifact.keyword "source") := by
  rw [checkPackage, hget]
  exact artifact.checkRequired_eq

/-- Inside a task, the block of a registered artifact is written. -/
theorem run_package_of_source {artifact : Artifact} (haligned : d.Aligned)
    (htask : d.context.current = Stanza.task.keyword) (hget : r.get? id = some artifact)
    (hsource : artifact.source?.isSome) :
    Script.run (r.package id) d = .done (d.add (Stanza.artifact.entry () artifact []).items) := by
  have hwritten := r.package_agrees Stanza.task.keyword id
  rw [checkPackage_in_task hget, if_pos hsource] at hwritten
  have hitems : Entry.allItems (r.packageEntries id) =
      (Stanza.artifact.entry () artifact []).items := by
    rw [packageEntries, hget]
    exact Entry.allItems_singleton _
  rw [Script.run_eq_onto _ d (r.package_paired id) haligned, htask, hwritten, hitems]
  rfl

/-- Inside a task, a name is refused as unknown exactly if nothing is registered under it. -/
theorem run_package_eq_unknown_iff (haligned : d.Aligned)
    (htask : d.context.current = Stanza.task.keyword) :
    Script.run (r.package id) d = .failed d (.unknownArtifact id) ↔ r.get? id = none := by
  cases hget : r.get? id with
  | none => simp [package, hget, Script.run, Action.run, Outcome.andThen]
  | some artifact =>
    have hwritten := r.package_agrees Stanza.task.keyword id
    rw [checkPackage_in_task hget] at hwritten
    rw [Script.run_eq_onto _ d (r.package_paired id) haligned, htask, Written.onto_eq_failed_iff]
    refine ⟨fun h => ?_, nofun⟩
    split at hwritten
    · rw [hwritten] at h
      cases h.2
    · cases hwritten.symm.trans h.2

/-- What tasks are supplied with: the artifacts that have a source. -/
structure Supplies (r : Registry) : Prop where
  written : ∀ d : Draft, d.Aligned → d.context.current = Stanza.task.keyword →
    ∀ id artifact, r.get? id = some artifact → artifact.source?.isSome →
      Script.run (r.package id) d = .done (d.add (Stanza.artifact.entry () artifact []).items)
  unknown : ∀ d : Draft, d.Aligned → d.context.current = Stanza.task.keyword →
    ∀ id, Script.run (r.package id) d = .failed d (.unknownArtifact id) ↔ r.get? id = none

theorem supplies (r : Registry) : r.Supplies where
  written _ haligned htask _ _ := run_package_of_source haligned htask
  unknown _ haligned htask _ := run_package_eq_unknown_iff haligned htask

end Registry

end JobFile
