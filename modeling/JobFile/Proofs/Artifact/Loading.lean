import Mathlib.Data.List.Induction
import JobFile.Artifact.Load
import JobFile.Proofs.Artifact.Registered
import JobFile.Proofs.Json.ReadsBack
import JobFile.Proofs.Text.ByteOrder

/-!
# Loading a directory

* `Disk.HasExtension`, `Registry.isDefinitionName_iff` : which entries are definitions;
* `Definition.read`, `Disk.definition` : what a file defines, or its fault;
* `LeastError`, `mapM_eq_error_iff` : of several faults the first counts, which has the least name;
* `GreatestArtifact`, `Registry.get?_of_ascending` : of several definitions the last counts, which
  has the greatest;
* `Disk.FirstFault`, `Disk.LastDefinition` : the same, said of names in any order;
* `Disk.Alike`, `Disk.Alike.load_eq` : the order makes no difference;
* `Disk.holding`, `Registry.tools` : a disk in memory, and one with definitions in any order;
* `Registry.load_of_contents` : what is loaded, and what becomes of it.

The names are sorted before the first file is read.  So the errors and the registry can be described
by the names alone, and two listings of one directory are compared through these descriptions.
-/

namespace JobFile

/-! ## Results -/

section Results

variable {ε ε' α β : Type} {x : Except ε α}

theorem error_of_mapError {f : ε → ε'} {fault : ε'} (h : x.mapError f = .error fault) :
    ∃ why, f why = fault := by
  cases x with
  | error why => exact ⟨why, Except.error.inj h⟩
  | ok a => cases h

theorem map_eq_error_iff {f : α → β} {why : ε} : x.map f = .error why ↔ x = .error why := by
  cases x <;> simp [Except.map]

end Results

/-! ## Names -/

namespace Disk

/-- Is this the extension of a name: what follows its last dot, unless nothing stands before? -/
def HasExtension (extension name : String) : Prop :=
  '.' ∉ extension.toList ∧ ∃ stem, stem ≠ "" ∧ name = stem ++ "." ++ extension

end Disk

theorem endsWith_iff {s ending : String} :
    s.endsWith ending = true ↔ ending.toList <:+ s.toList := by
  show s.toSlice.endsWith ending = true ↔ _
  rw [String.Slice.endsWith_string_iff, String.copy_toSlice]

/-- A slash stands between a directory and a name. -/
theorem Disk.join_of_plain {directory : String} (h : directory.isEmpty = false)
    (hslash : ¬"/".toList <:+ directory.toList) (name : String) :
    join directory name = directory ++ "/" ++ name := by
  rw [join, h, Bool.eq_false_iff.2 (mt endsWith_iff.1 hslash)]
  rfl

namespace Registry

theorem isDefinitionName_iff {name : String} :
    isDefinitionName name = true ↔ Disk.HasExtension "json" name := by
  rw [isDefinitionName, Bool.and_eq_true, decide_eq_true_eq, endsWith_iff]
  constructor
  · rintro ⟨⟨stem, hstem⟩, hlength⟩
    have hname : name = String.ofList stem ++ "." ++ "json" := by
      rw [← String.toList_inj, ← hstem]
      simp
    refine ⟨by decide, String.ofList stem, ?_, hname⟩
    intro hempty
    rw [hname, hempty] at hlength
    exact absurd hlength (by decide)
  · rintro ⟨-, stem, hne, rfl⟩
    refine ⟨⟨stem.toList, by simp⟩, ?_⟩
    have hpos : stem.length ≠ 0 := mt String.length_eq_zero_iff.1 hne
    have hlength : (stem ++ "." ++ "json").length = stem.length + 5 := by
      rw [String.length_append, String.length_append, Nat.add_assoc]
      rfl
    omega

/-- The ending alone is no name with an extension. -/
example : isDefinitionName ".json" = false := by cbv

end Registry

/-! ## What a file defines -/

/-- The definition that a file holds, given what it says. -/
def Definition.read (path : String) (content : Except DiskError String) :
    Except LoadError Definition := do
  let text ← content.mapError (.unreadable path)
  (parse Definition.decode text).mapError (.invalid path text)

/-- A definition with its name in front. -/
def Definition.entry (d : Definition) : String × Artifact := (d.id, d.artifact)

/-- The path at fault. -/
def LoadError.path : LoadError → String
  | .unreadable path _ | .invalid path _ _ => path

/-- What the file of a name defines. -/
def Disk.definition (disk : Disk Id) (directory name : String) : Except LoadError Definition :=
  Definition.read (Disk.join directory name) (disk.readText (Disk.join directory name))

theorem Definition.path_of_read {path : String} {content : Except DiskError String}
    {why : LoadError} (h : Definition.read path content = .error why) : why.path = path := by
  cases content with
  | error fault =>
    cases h
    rfl
  | ok text =>
    obtain ⟨fault, rfl⟩ := error_of_mapError (x := parse Definition.decode text) h
    rfl

theorem Definition.source_of_read {path : String} {content : Except DiskError String}
    {d : Definition} (h : Definition.read path content = .ok d) :
    d.artifact.source?.isSome := by
  obtain ⟨text, -, hread⟩ := ok_of_bind h
  obtain ⟨record, -, hrecord⟩ := ok_of_map (ok_of_parse (ok_of_mapError hread))
  rw [← hrecord]
  match record with
  | .cons _ (.cons _ (.cons _ (.cons _ (.cons _ .nil)))) => rfl

/-! ## Results of names in ascending order -/

section Ascending

variable {ε α : Type} {f : String → Except ε α} {name : String} {names : List String}

theorem mapM_cons_of_error {why : ε} (h : f name = .error why) :
    (name :: names).mapM f = .error why := by
  rw [List.mapM_cons, h]
  rfl

theorem mapM_cons_of_ok {a : α} (h : f name = .ok a) :
    (name :: names).mapM f = (names.mapM f).map (a :: ·) := by
  rw [List.mapM_cons, h]
  show (names.mapM f >>= fun as => pure (a :: as)) = _
  cases names.mapM f <;> rfl

theorem of_mapM_ok {as : List α} (h : names.mapM f = .ok as) :
    (∀ name ∈ names, ∃ a, f name = .ok a) ∧ as = names.filterMap fun name => (f name).toOption := by
  induction names generalizing as with
  | nil =>
    cases h
    exact ⟨nofun, rfl⟩
  | cons name names ih =>
    cases hname : f name with
    | error why => cases (mapM_cons_of_error hname).symm.trans h
    | ok a =>
      rw [mapM_cons_of_ok hname] at h
      obtain ⟨rest, hrest, rfl⟩ := ok_of_map h
      obtain ⟨hall, hfilter⟩ := ih hrest
      refine ⟨List.forall_mem_cons.2 ⟨⟨a, hname⟩, hall⟩, ?_⟩
      rw [List.filterMap_cons, hname, ← hfilter]
      rfl

/-- The error of the least name that has one. -/
def LeastError (f : String → Except ε α) (names : List String) (why : ε) : Prop :=
  ∃ name ∈ names, f name = .error why ∧
    ∀ other ∈ names, (∃ fault, f other = .error fault) → name ≤ other

theorem leastError_cons_of_error (hleast : ∀ other ∈ names, name ≤ other) {fault why : ε}
    (hname : f name = .error fault) : LeastError f (name :: names) why ↔ fault = why := by
  constructor
  · rintro ⟨first, hmem, hfirst, hall⟩
    have heq : first = name := by
      rcases List.mem_cons.1 hmem with rfl | hmem
      · rfl
      · exact le_antisymm (hall name List.mem_cons_self ⟨fault, hname⟩) (hleast first hmem)
    rw [heq, hname] at hfirst
    exact Except.error.inj hfirst
  · rintro rfl
    refine ⟨name, List.mem_cons_self, hname, fun other hother _ => ?_⟩
    rcases List.mem_cons.1 hother with rfl | hother
    · exact le_rfl
    · exact hleast other hother

theorem leastError_cons_of_ok {a : α} (hname : f name = .ok a) {why : ε} :
    LeastError f (name :: names) why ↔ LeastError f names why := by
  have hsound : ∀ fault, f name ≠ .error fault := fun fault => by rw [hname]; nofun
  constructor
  · rintro ⟨first, hmem, hfirst, hall⟩
    rcases List.mem_cons.1 hmem with rfl | hmem
    · exact absurd hfirst (hsound why)
    · exact ⟨first, hmem, hfirst, fun other hother => hall other (List.mem_cons_of_mem _ hother)⟩
  · rintro ⟨first, hmem, hfirst, hall⟩
    refine ⟨first, List.mem_cons_of_mem _ hmem, hfirst, fun other hother ⟨fault, hfault⟩ => ?_⟩
    rcases List.mem_cons.1 hother with rfl | hother
    · exact absurd hfault (hsound fault)
    · exact hall other hother ⟨fault, hfault⟩

/-- The first error is that of the least name that has one. -/
theorem mapM_eq_error_iff (hsorted : names.Pairwise (· ≤ ·)) {why : ε} :
    names.mapM f = .error why ↔ LeastError f names why := by
  induction names with
  | nil => exact ⟨nofun, nofun⟩
  | cons name names ih =>
    obtain ⟨hleast, hrest⟩ := List.pairwise_cons.1 hsorted
    cases hname : f name with
    | error fault =>
      rw [mapM_cons_of_error hname, leastError_cons_of_error hleast hname, Except.error.injEq]
    | ok a =>
      rw [mapM_cons_of_ok hname, leastError_cons_of_ok hname, map_eq_error_iff, ih hrest]

end Ascending

section Definitions

variable {f : String → Except LoadError Definition} {name : String} {names : List String}
  {id : String} {artifact : Artifact}

/-- The artifact that the greatest name defines for an id, of those that define one. -/
def GreatestArtifact (f : String → Except LoadError Definition) (names : List String) (id : String)
    (artifact : Artifact) : Prop :=
  ∃ name ∈ names, f name = .ok ⟨id, artifact⟩ ∧
    ∀ other ∈ names, (∃ artifact', f other = .ok ⟨id, artifact'⟩) → other ≤ name

theorem greatestArtifact_append_of_other (hother : ∀ artifact', f name ≠ .ok ⟨id, artifact'⟩) :
    GreatestArtifact f (names ++ [name]) id artifact ↔ GreatestArtifact f names id artifact := by
  constructor
  · rintro ⟨last, hmem, hlast, hall⟩
    rcases List.mem_append.1 hmem with hmem | hmem
    · exact ⟨last, hmem, hlast, fun other h => hall other (List.mem_append_left _ h)⟩
    · exact absurd (List.mem_singleton.1 hmem ▸ hlast) (hother artifact)
  · rintro ⟨last, hmem, hlast, hall⟩
    refine ⟨last, List.mem_append_left _ hmem, hlast, fun other h ⟨artifact', hdefined⟩ => ?_⟩
    rcases List.mem_append.1 h with h | h
    · exact hall other h ⟨artifact', hdefined⟩
    · exact absurd (List.mem_singleton.1 h ▸ hdefined) (hother artifact')

theorem greatestArtifact_append_of_defined (hgreatest : ∀ other ∈ names, other ≤ name)
    {last : Artifact} (hname : f name = .ok ⟨id, last⟩) :
    GreatestArtifact f (names ++ [name]) id artifact ↔ last = artifact := by
  have hself : name ∈ names ++ [name] := List.mem_append_right _ List.mem_cons_self
  have hall : ∀ other ∈ names ++ [name], other ≤ name := fun other h => by
    rcases List.mem_append.1 h with h | h
    · exact hgreatest other h
    · exact (List.mem_singleton.1 h).le
  constructor
  · rintro ⟨other, hmem, hother, hbound⟩
    have heq : other = name := le_antisymm (hall other hmem) (hbound name hself ⟨last, hname⟩)
    rw [heq, hname] at hother
    cases hother
    rfl
  · rintro rfl
    exact ⟨name, hself, hname, fun other h _ => hall other h⟩

/-- Of several definitions of one id, the one with the greatest file name counts. -/
theorem Registry.get?_of_ascending (hsorted : names.Pairwise (· ≤ ·)) :
    (Registry.registerAll {} (names.filterMap fun name =>
        (f name).toOption.map Definition.entry)).get? id = some artifact ↔
      GreatestArtifact f names id artifact := by
  induction names using List.reverseRecOn with
  | nil => exact ⟨nofun, nofun⟩
  | append_singleton names name ih =>
    obtain ⟨hinit, -, hbefore⟩ := List.pairwise_append.1 hsorted
    rw [List.filterMap_append, registerAll_append, List.filterMap_cons]
    cases hname : f name with
    | error why =>
      rw [greatestArtifact_append_of_other fun artifact' => by rw [hname]; nofun, ← ih hinit]
      rfl
    | ok d =>
      obtain ⟨key, last⟩ := d
      show ((Registry.registerAll {} _).register key last).get? id = _ ↔ _
      rw [get?_register]
      by_cases hkey : id = key
      · subst hkey
        rw [if_pos rfl, greatestArtifact_append_of_defined
          (fun other h => hbefore other h name List.mem_cons_self) hname, Option.some.injEq]
      · rw [if_neg hkey, ih hinit, greatestArtifact_append_of_other]
        rintro artifact' h
        cases hname.symm.trans h
        exact hkey rfl

end Definitions

namespace Registry

theorem loadFile_eq (r : Registry) (path : String) (content : Except DiskError String) :
    r.loadFile path content = (Definition.read path content).map r.define := by
  unfold loadFile Definition.read
  cases content with
  | error why => rfl
  | ok text =>
    show ((parse Definition.decode text).mapError (LoadError.invalid path text) >>= _) =
      ((parse Definition.decode text).mapError (LoadError.invalid path text)).map _
    cases parse Definition.decode text <;> rfl

variable (disk : Disk Id) (directory : String)

theorem loadFiles_cons_of_ok {name : String} {r s : Registry} (names : List String)
    (h : r.loadFile (Disk.join directory name) (disk.readText (Disk.join directory name)) = .ok s) :
    loadFiles disk directory (name :: names) r = loadFiles disk directory names s := by
  rw [loadFiles]
  simp only [bind]
  rw [h]

theorem loadFiles_cons_of_error {name : String} {r : Registry} {why : LoadError}
    (names : List String)
    (h : r.loadFile (Disk.join directory name) (disk.readText (Disk.join directory name)) =
      .error why) :
    loadFiles disk directory (name :: names) r = .error why := by
  rw [loadFiles]
  simp only [bind]
  rw [h]
  rfl

/-- Files are loaded if each of them holds a definition. -/
theorem loadFiles_eq (names : List String) (r : Registry) :
    loadFiles disk directory names r =
      (names.mapM (disk.definition directory)).map fun ds =>
        r.registerAll (ds.map Definition.entry) := by
  induction names generalizing r with
  | nil => rfl
  | cons name names ih =>
    have hfile : r.loadFile (Disk.join directory name) (disk.readText (Disk.join directory name)) =
        (disk.definition directory name).map r.define := loadFile_eq r _ _
    cases hname : disk.definition directory name with
    | error why =>
      rw [hname] at hfile
      rw [loadFiles_cons_of_error disk directory names hfile, mapM_cons_of_error hname]
      rfl
    | ok d =>
      rw [hname] at hfile
      rw [loadFiles_cons_of_ok disk directory names hfile, ih, mapM_cons_of_ok hname]
      cases names.mapM (disk.definition directory) <;> rfl

end Registry

/-! ## The least fault and the greatest definition -/

namespace Disk

variable (disk : Disk Id) (directory : String) (names : List String)

/-- The fault of the definition whose name has the least bytes, among those that have one. -/
def FirstFault (why : LoadError) : Prop :=
  ∃ name ∈ names, HasExtension "json" name ∧ disk.definition directory name = .error why ∧
    why.path = join directory name ∧
    ∀ other ∈ names, HasExtension "json" other →
      (∃ fault, disk.definition directory other = .error fault) →
        Text.bytes name ≤ Text.bytes other

/-- The artifact that is defined for a name in the file whose own name has the greatest bytes. -/
def LastDefinition (id : String) (artifact : Artifact) : Prop :=
  ∃ name ∈ names, HasExtension "json" name ∧
    disk.definition directory name = .ok ⟨id, artifact⟩ ∧
    ∀ other ∈ names, HasExtension "json" other →
      (∃ artifact', disk.definition directory other = .ok ⟨id, artifact'⟩) →
        Text.bytes other ≤ Text.bytes name

/-- The same directory, but for the order of its entries and for what is no definition. -/
structure Alike (other : Disk Id) : Prop where
  present : disk.present directory = other.present directory
  listed : (∃ why, disk.list directory = .error why ∧ other.list directory = .error why) ∨
    ∃ names names', disk.list directory = .ok names ∧ other.list directory = .ok names' ∧
      ∀ name, HasExtension "json" name →
        (name ∈ names ↔ name ∈ names') ∧
          (name ∈ names → disk.read (join directory name) = other.read (join directory name))

end Disk

namespace Registry

variable {disk : Disk Id} {directory : String} {names : List String}

theorem mem_definitionNames {name : String} :
    name ∈ definitionNames names ↔ name ∈ names ∧ Disk.HasExtension "json" name := by
  rw [definitionNames, List.mem_mergeSort, List.mem_filter, isDefinitionName_iff]

theorem definitionNames_ascending (names : List String) :
    (definitionNames names).Pairwise (· ≤ ·) := by
  refine (List.pairwise_mergeSort (fun a b c hab hbc => ?_) (fun a b => ?_) _).imp
    of_decide_eq_true
  · exact decide_eq_true ((of_decide_eq_true hab).trans (of_decide_eq_true hbc))
  · rw [Bool.or_eq_true, decide_eq_true_eq, decide_eq_true_eq]
    exact le_total a b

theorem load_of_list (hpresent : disk.present directory = true)
    (hlist : disk.list directory = .ok names) :
    load disk directory = ((definitionNames names).mapM (disk.definition directory)).map fun ds =>
      registerAll {} (ds.map Definition.entry) := by
  rw [← loadFiles_eq]
  unfold load
  simp only [bind, pure]
  rw [hpresent, hlist]
  rfl

/-- A directory with a single definition. -/
theorem load_of_singleton {name : String} (hpresent : disk.present directory = true)
    (hlist : disk.list directory = .ok [name]) (hext : Disk.HasExtension "json" name) :
    load disk directory = (disk.definition directory name).map ({} : Registry).define := by
  have hnames : definitionNames [name] = [name] := by
    rw [definitionNames, List.filter_cons_of_pos (isDefinitionName_iff.2 hext)]
    exact List.mergeSort_singleton _
  rw [load_of_list hpresent hlist, hnames]
  cases hname : disk.definition directory name with
  | error why =>
    rw [mapM_cons_of_error hname]
    rfl
  | ok d =>
    rw [mapM_cons_of_ok hname]
    rfl

theorem load_eq_error_iff (hpresent : disk.present directory = true)
    (hlist : disk.list directory = .ok names) {why : LoadError} :
    load disk directory = .error why ↔ disk.FirstFault directory names why := by
  rw [load_of_list hpresent hlist]
  refine map_eq_error_iff.trans ((mapM_eq_error_iff (definitionNames_ascending names)).trans ?_)
  unfold LeastError Disk.FirstFault
  simp only [mem_definitionNames, Text.bytes_le_iff, and_imp, and_assoc]
  refine exists_congr fun name => ?_
  constructor
  · rintro ⟨hmem, hext, hname, hall⟩
    exact ⟨hmem, hext, hname, Definition.path_of_read hname, hall⟩
  · rintro ⟨hmem, hext, hname, -, hall⟩
    exact ⟨hmem, hext, hname, hall⟩

theorem eq_registerAll_of_load (hpresent : disk.present directory = true)
    (hlist : disk.list directory = .ok names) {r : Registry} (hload : load disk directory = .ok r) :
    (∀ name ∈ names, Disk.HasExtension "json" name → ∃ d, disk.definition directory name = .ok d) ∧
      r = registerAll {} ((definitionNames names).filterMap fun name =>
        (disk.definition directory name).toOption.map Definition.entry) := by
  rw [load_of_list hpresent hlist] at hload
  obtain ⟨ds, hds, hr⟩ := ok_of_map hload
  obtain ⟨hall, hdefined⟩ := of_mapM_ok hds
  refine ⟨fun name hmem hext => hall name (mem_definitionNames.2 ⟨hmem, hext⟩), ?_⟩
  rw [← hr, hdefined, List.map_filterMap]

theorem get?_of_load (hpresent : disk.present directory = true)
    (hlist : disk.list directory = .ok names) {r : Registry} (hload : load disk directory = .ok r)
    {id : String} {artifact : Artifact} :
    r.get? id = some artifact ↔ disk.LastDefinition directory names id artifact := by
  rw [(eq_registerAll_of_load hpresent hlist hload).2,
    get?_of_ascending (definitionNames_ascending names)]
  unfold GreatestArtifact Disk.LastDefinition
  simp only [mem_definitionNames, Text.bytes_le_iff, and_imp, and_assoc]

theorem load_of_absent (hpresent : disk.present directory = false) :
    load disk directory = .ok {} := by
  unfold load
  simp only [bind, pure]
  rw [hpresent]
  rfl

theorem load_of_unlisted (hpresent : disk.present directory = true) {why : DiskError}
    (hlist : disk.list directory = .error why) :
    load disk directory = .error (.unreadable directory why) := by
  unfold load
  simp only [bind, pure]
  rw [hpresent, hlist]
  rfl

/-- A directory is missing, cannot be listed, or has its names. -/
theorem load_cases (disk : Disk Id) (directory : String) :
    load disk directory = .ok {} ∨ (∃ why, load disk directory = .error why) ∨
      ∃ names, disk.present directory = true ∧ disk.list directory = .ok names := by
  cases hpresent : (disk.present directory : Bool) with
  | false => exact .inl (load_of_absent hpresent)
  | true =>
    cases hlist : (disk.list directory : Except DiskError (List String)) with
    | error why => exact .inr (.inl ⟨_, load_of_unlisted hpresent hlist⟩)
    | ok names => exact .inr (.inr ⟨names, rfl, rfl⟩)

theorem sorted_of_load {r : Registry} (hload : load disk directory = .ok r) : r.Sorted := by
  obtain hnone | ⟨why, hfault⟩ | ⟨names, hpresent, hlist⟩ := load_cases disk directory
  · cases hnone.symm.trans hload
    exact sorted_empty
  · cases hfault.symm.trans hload
  · rw [(eq_registerAll_of_load hpresent hlist hload).2]
    exact sorted_empty.registerAll _

/-- An artifact that comes from a file has a source. -/
theorem source_of_load {r : Registry} (hload : load disk directory = .ok r) {id : String}
    {artifact : Artifact} (hget : r.get? id = some artifact) : artifact.source?.isSome := by
  obtain hnone | ⟨why, hfault⟩ | ⟨names, hpresent, hlist⟩ := load_cases disk directory
  · cases hnone.symm.trans hload
    cases hget
  · cases hfault.symm.trans hload
  · obtain ⟨name, -, -, hname, -⟩ := (get?_of_load hpresent hlist hload).1 hget
    exact Definition.source_of_read hname

theorem load_eq_ok_iff (hpresent : disk.present directory = true)
    (hlist : disk.list directory = .ok names) :
    (∃ r, load disk directory = .ok r) ↔
      ∀ name ∈ names, Disk.HasExtension "json" name →
        ∃ d, disk.definition directory name = .ok d := by
  refine ⟨fun ⟨r, hload⟩ => (eq_registerAll_of_load hpresent hlist hload).1, fun hall => ?_⟩
  cases hload : (load disk directory : Except LoadError Registry) with
  | ok r => exact ⟨r, rfl⟩
  | error why =>
    obtain ⟨name, hmem, hext, hname, -⟩ := (load_eq_error_iff hpresent hlist).1 hload
    obtain ⟨d, hd⟩ := hall name hmem hext
    cases hname.symm.trans hd

end Registry

/-! ## Another order of the entries -/

namespace Disk

variable {disk other : Disk Id} {directory : String} {names names' : List String}

/-- The same definitions under the same names. -/
def SameDefinitions (disk other : Disk Id) (directory : String) (names names' : List String) :
    Prop :=
  ∀ name, HasExtension "json" name → (name ∈ names ↔ name ∈ names') ∧
    (name ∈ names → disk.definition directory name = other.definition directory name)

theorem SameDefinitions.symm (h : SameDefinitions disk other directory names names') :
    SameDefinitions other disk directory names' names := fun name hext =>
  ⟨(h name hext).1.symm, fun hmem => ((h name hext).2 ((h name hext).1.2 hmem)).symm⟩

theorem SameDefinitions.firstFault (h : SameDefinitions disk other directory names names')
    {why : LoadError} (hfault : disk.FirstFault directory names why) :
    other.FirstFault directory names' why := by
  obtain ⟨name, hmem, hext, hname, hpath, hall⟩ := hfault
  refine ⟨name, (h name hext).1.1 hmem, hext, ((h name hext).2 hmem) ▸ hname, hpath,
    fun name' hmem' hext' hfault' => ?_⟩
  have hmem' := (h name' hext').1.2 hmem'
  exact hall name' hmem' hext' ((h name' hext').2 hmem' ▸ hfault')

theorem SameDefinitions.lastDefinition (h : SameDefinitions disk other directory names names')
    {id : String} {artifact : Artifact} (hlast : disk.LastDefinition directory names id artifact) :
    other.LastDefinition directory names' id artifact := by
  obtain ⟨name, hmem, hext, hname, hall⟩ := hlast
  refine ⟨name, (h name hext).1.1 hmem, hext, ((h name hext).2 hmem) ▸ hname,
    fun name' hmem' hext' hdefined => ?_⟩
  have hmem' := (h name' hext').1.2 hmem'
  exact hall name' hmem' hext' ((h name' hext').2 hmem' ▸ hdefined)

theorem SameDefinitions.load_eq (h : SameDefinitions disk other directory names names')
    (hpresent : disk.present directory = true) (hpresent' : other.present directory = true)
    (hlist : disk.list directory = .ok names) (hlist' : other.list directory = .ok names') :
    Registry.load disk directory = Registry.load other directory := by
  cases hload : (Registry.load disk directory : Except LoadError Registry) with
  | error why =>
    have hfault := (Registry.load_eq_error_iff hpresent hlist).1 hload
    exact ((Registry.load_eq_error_iff hpresent' hlist').2 (h.firstFault hfault)).symm
  | ok r =>
    cases hload' : (Registry.load other directory : Except LoadError Registry) with
    | error why =>
      have hfault := (Registry.load_eq_error_iff hpresent' hlist').1 hload'
      cases hload.symm.trans ((Registry.load_eq_error_iff hpresent hlist).2
        (h.symm.firstFault hfault))
    | ok r' =>
      refine congrArg _ ((Registry.sorted_of_load hload).ext (Registry.sorted_of_load hload')
        fun id => Option.ext fun artifact => ?_)
      rw [Registry.get?_of_load hpresent hlist hload,
        Registry.get?_of_load hpresent' hlist' hload']
      exact ⟨h.lastDefinition, h.symm.lastDefinition⟩

/-- Directories that are alike are loaded alike. -/
theorem Alike.load_eq (h : disk.Alike directory other) :
    Registry.load disk directory = Registry.load other directory := by
  cases hpresent : (disk.present directory : Bool) with
  | false =>
    rw [Registry.load_of_absent hpresent, Registry.load_of_absent (h.present ▸ hpresent)]
  | true =>
    have hpresent' : other.present directory = true := h.present ▸ hpresent
    obtain ⟨why, hlist, hlist'⟩ | ⟨names, names', hlist, hlist', hsame⟩ := h.listed
    · rw [Registry.load_of_unlisted hpresent hlist, Registry.load_of_unlisted hpresent' hlist']
    · refine SameDefinitions.load_eq (fun name hext => ⟨(hsame name hext).1, fun hmem => ?_⟩)
        hpresent hpresent' hlist hlist'
      rw [definition, definition, readText, readText, (hsame name hext).2 hmem]

end Disk

/-! ## A disk in memory -/

namespace Disk

/-- Directories with the names in them, and files with their texts. -/
def holding (directories : Entries (List String)) (texts : Entries String) : Disk Id where
  present path := (directories.lookup path).isSome || (texts.lookup path).isSome
  list path := match directories.lookup path with
    | some names => .ok names
    | none => .error (if (texts.lookup path).isSome then .notADirectory else .noSuchFile)
  read path := match texts.lookup path with
    | some s => .ok s.toUTF8
    | none => .error (if (directories.lookup path).isSome then .isADirectory else .noSuchFile)

variable {directories : Entries (List String)} {texts : Entries String}

theorem readText_holding {path s : String} (h : texts.lookup path = some s) :
    (holding directories texts).readText path = .ok s := by
  simp only [readText, holding, h, bind, pure]
  exact text_toUTF8 s

theorem definition_holding {directory name s : String} (hne : directory.isEmpty = false)
    (hslash : ¬"/".toList <:+ directory.toList)
    (h : texts.lookup (directory ++ "/" ++ name) = some s) :
    (holding directories texts).definition directory name =
      (parse Definition.decode s).mapError (.invalid (directory ++ "/" ++ name) s) := by
  rw [definition, join_of_plain hne hslash, readText_holding h]
  rfl

/-- The order in which a directory is listed makes no difference. -/
theorem holding_alike {directory : String} {names names' : List String}
    (h : ∀ name, HasExtension "json" name → (name ∈ names ↔ name ∈ names')) :
    (holding [(directory, names)] texts).Alike directory (holding [(directory, names')] texts) where
  present := by simp [holding]
  listed := .inr ⟨names, names', by simp [holding], by simp [holding],
    fun name hext => ⟨h name hext, fun _ => by simp [holding]⟩⟩

end Disk

/-! ## What a directory holds -/

namespace Registry

/-- A definition of a tool. -/
def toolJson (source : String) : Json :=
  .object [("id", .string "tool"), ("source", .string source)]

/-- The tool that is defined. -/
def fetched (source : String) : Artifact :=
  .cons (some source) (.cons none (.cons none (.cons none .nil)))

theorem entry_fetched (source : String) : (Stanza.artifact.entry () (fetched source) []).items =
    [.block "artifact" none [.line ("source = " ++ Text.quote source)]] := rfl

theorem parse_toolJson (source : String) :
    parse Definition.decode (toolJson source).text = .ok ⟨"tool", fetched source⟩ := by
  have hplain : (toolJson source).Plain maxDepth := ⟨trivial, trivial, trivial⟩
  rw [parse_text hplain]
  rfl

/-- Two definitions of a tool, a definition that breaks off, and a note. -/
def toolTexts : Entries String :=
  [("artifacts/a.json", (toolJson "early").text), ("artifacts/b.json", (toolJson "late").text),
    ("artifacts/c.json", "\x7b"), ("artifacts/notes", "")]

/-- A directory of them, in which some names are listed. -/
def tools (names : List String) : Disk Id := .holding [("artifacts", names)] toolTexts

section

variable (names : List String)

theorem definition_tools_early :
    (tools names).definition "artifacts" "a.json" = .ok ⟨"tool", fetched "early"⟩ := by
  rw [tools, Disk.definition_holding rfl (by decide) rfl, parse_toolJson]
  rfl

theorem definition_tools_late :
    (tools names).definition "artifacts" "b.json" = .ok ⟨"tool", fetched "late"⟩ := by
  rw [tools, Disk.definition_holding rfl (by decide) rfl, parse_toolJson]
  rfl

theorem definition_tools_cut : (tools names).definition "artifacts" "c.json" =
    .error (.invalid "artifacts/c.json" "\x7b" .malformed) := by
  have htext : Reading.ofText "\x7b" = (.object .broken, true) := by cbv
  rw [tools, Disk.definition_holding rfl (by decide) rfl, parse, htext]
  rfl

end

/-- Two definitions and a note. -/
def scattered : List String := ["b.json", "notes", "a.json"]

/-- A missing file, a definition, and a definition that breaks off. -/
def faulty : List String := ["d.json", "a.json", "c.json"]

theorem mem_scattered_iff {name : String} (hext : Disk.HasExtension "json" name) :
    name ∈ scattered ↔ name = "a.json" ∨ name = "b.json" := by
  have hnotes : name ≠ "notes" := by
    rintro rfl
    obtain ⟨-, stem, -, hname⟩ := hext
    have hlast := congrArg (fun s => s.toList.getLast?) hname
    simp at hlast
  simp [scattered, hnotes, or_comm]

theorem tools_lastDefinition :
    (tools scattered).LastDefinition "artifacts" scattered "tool" (fetched "late") := by
  refine ⟨"b.json", by decide, ⟨by decide, "b", by decide, rfl⟩, definition_tools_late _,
    fun name hmem hext _ => ?_⟩
  rcases (mem_scattered_iff hext).1 hmem with rfl | rfl
  · exact Text.bytes_le_iff.2 (by decide)
  · exact Text.bytes_le_iff.2 (by decide)

theorem tools_firstFault : (tools faulty).FirstFault "artifacts" faulty
    (.invalid "artifacts/c.json" "\x7b" .malformed) := by
  have hcut := definition_tools_cut faulty
  refine ⟨"c.json", by decide, ⟨by decide, "c", by decide, rfl⟩, hcut,
    Definition.path_of_read hcut, fun name hmem _ ⟨fault, hname⟩ => ?_⟩
  simp only [faulty, List.mem_cons, List.not_mem_nil, or_false] at hmem
  rcases hmem with rfl | rfl | rfl
  · exact Text.bytes_le_iff.2 (by decide)
  · cases (definition_tools_early _).symm.trans hname
  · exact Text.bytes_le_iff.2 (by decide)

/-- **A registry is a matter of what a directory holds, not of the order in which it is listed.**
Directories that differ only in this order, and in what is no definition, are loaded alike.  The
fault with the least name is reported; if there is none, every id has the artifact that the file
with the greatest name defines for it.  Whatever is registered after that, the artifacts ascend by
id, the last registration of an id counts, and inside a task exactly the ids that are not registered
are unknown: the block of any other is written, if only the artifact has a source, as all from files
have. -/
theorem load_of_contents (disk : Disk Id) (directory : String) :
    (∀ other, disk.Alike directory other → load disk directory = load other directory) ∧
    (disk.present directory = false → load disk directory = .ok {}) ∧
    (∀ why, disk.present directory = true → disk.list directory = .error why →
      load disk directory = .error (.unreadable directory why)) ∧
    (∀ names, disk.present directory = true → disk.list directory = .ok names →
      (∀ why, load disk directory = .error why ↔ disk.FirstFault directory names why) ∧
      ((∃ r, load disk directory = .ok r) ↔ ∀ name ∈ names, Disk.HasExtension "json" name →
        ∃ d, disk.definition directory name = .ok d) ∧
      ∀ r, load disk directory = .ok r → ∀ id artifact,
        r.get? id = some artifact ↔ disk.LastDefinition directory names id artifact) ∧
    ∀ r, load disk directory = .ok r →
      (∀ rs, r.Collects rs (r.registerAll rs) ∧ (r.registerAll rs).Supplies) ∧
      ∀ id artifact, r.get? id = some artifact → artifact.source?.isSome := by
  refine ⟨fun other => Disk.Alike.load_eq, load_of_absent,
    fun why hpresent => load_of_unlisted hpresent, fun names hpresent hlist => ?_,
    fun r hload => ⟨fun rs => ?_, fun id artifact => source_of_load hload⟩⟩
  · exact ⟨fun why => load_eq_error_iff hpresent hlist, load_eq_ok_iff hpresent hlist,
      fun r hload id artifact => get?_of_load hpresent hlist hload⟩
  · exact ⟨(sorted_of_load hload).collects rs, supplies _⟩

theorem load_of_contents_tools :
    let task : Draft := { indent := 1, context := ⟨["task"]⟩ }
    (∃ r, load (tools scattered) "artifacts" = .ok r ∧
      load (tools ["a.json", "b.json"]) "artifacts" = .ok r ∧
      r.get? "tool" = some (fetched "late") ∧
      (r.registerAll [("tool", fetched "own")]).get? "tool" = some (fetched "own") ∧
      Script.run (r.package "tool") task =
        .done (task.add [.block "artifact" none [.line "source = \"late\""]]) ∧
      Script.run (r.package "saw") task = .failed task (.unknownArtifact "saw")) ∧
    load (tools faulty) "artifacts" = .error (.invalid "artifacts/c.json" "\x7b" .malformed) ∧
    load (tools ["c.json", "d.json", "a.json"]) "artifacts" = load (tools faulty) "artifacts" ∧
    load (tools faulty) "artifacts/notes" =
      .error (.unreadable "artifacts/notes" .notADirectory) ∧
    load (tools faulty) "missing" = .ok {} := by
  intro task
  obtain ⟨hsame, -, -, hlisted, hlater⟩ := load_of_contents (tools scattered) "artifacts"
  obtain ⟨-, hok, hget⟩ := hlisted scattered rfl rfl
  obtain ⟨hsameFault, -, -, hfaulty, -⟩ := load_of_contents (tools faulty) "artifacts"
  obtain ⟨-, hmissing, -⟩ := load_of_contents (tools faulty) "missing"
  obtain ⟨-, -, hunlisted, -⟩ := load_of_contents (tools faulty) "artifacts/notes"
  obtain ⟨r, hload⟩ : ∃ r, load (tools scattered) "artifacts" = .ok r := by
    refine hok.2 fun name hmem hext => ?_
    rcases (mem_scattered_iff hext).1 hmem with rfl | rfl
    · exact ⟨_, definition_tools_early _⟩
    · exact ⟨_, definition_tools_late _⟩
  have htool : r.get? "tool" = some (fetched "late") := (hget r hload _ _).2 tools_lastDefinition
  have hsaw : r.get? "saw" = none := by
    refine Option.eq_none_iff_forall_ne_some.2 fun artifact h => ?_
    obtain ⟨name, hmem, hext, hname, -⟩ := (hget r hload _ _).1 h
    have hid : "tool" = "saw" := by
      rcases (mem_scattered_iff hext).1 hmem with rfl | rfl
      · exact congrArg Definition.id (Except.ok.inj ((definition_tools_early _).symm.trans hname))
      · exact congrArg Definition.id (Except.ok.inj ((definition_tools_late _).symm.trans hname))
    exact absurd hid (by decide)
  obtain ⟨hregistered, -⟩ := hlater r hload
  have hsupplies : r.Supplies := (hregistered []).2
  refine ⟨⟨r, hload, ?_, htool, ?_, ?_, ?_⟩, ?_, ?_, ?_, ?_⟩
  · refine (hsame _ (Disk.holding_alike fun name hext => ?_)).symm.trans hload
    rw [mem_scattered_iff hext]
    simp
  · exact ((hregistered _).1.latest "tool").trans rfl
  · rw [hsupplies.written task rfl rfl "tool" _ htool rfl, entry_fetched]
    rfl
  · exact (hsupplies.unknown task rfl rfl "saw").2 hsaw
  · exact ((hfaulty faulty rfl rfl).1 _).2 tools_firstFault
  · exact (hsameFault _ (Disk.holding_alike fun name _ => by simp [faulty]; grind)).symm
  · exact hunlisted _ rfl rfl
  · exact hmissing rfl

end Registry

end JobFile
