import JobFile.Proofs.Description.Check
import JobFile.Proofs.Description.Tree
import JobFile.Proofs.Layout.Balance

/-!
# Writing agrees with checking

* `Written.Agrees`       : what is written is what is expected if a check passes, and ends with the
  refusal of the check if it does not;
* `Script.append_agrees`, `Script.within_agrees`, `Script.block_agrees` : scripts in a row, in their
  place, and in a block;
* `Value.assign_agrees`  : values are written by their shape if they have one;
* `Stanza.write_agrees`  : a block is written if its place, its choices, its required fields and
  its inside are in order;
* `Config.write_agrees`, `Registry.package_agrees` and their like : the other writers of the catalog.

A block that fails on the way is written in part.  So nothing is said about the items before a
refusal: only the refusal itself is compared.
-/

namespace JobFile

/-- If the check passes, exactly the items are written; if it refuses, so does the writing. -/
def Written.Agrees (w : Written) (check : Except Refusal Unit) (items : List Item) : Prop :=
  match check with
  | .ok () => w = ⟨items, none⟩
  | .error why => w.refusal = some why

namespace Written

theorem agrees_nothing : nothing.Agrees (.ok ()) [] := rfl

theorem agrees_refused (why : Refusal) (items : List Item) :
    (refused why).Agrees (.error why) items := rfl

theorem Agrees.andThen {w w' : Written} {c c' : Except Refusal Unit} {xs ys : List Item}
    (h : w.Agrees c xs) (h' : c = .ok () → w'.Agrees c' ys) :
    (w.andThen w').Agrees (c >>= fun _ => c') (xs ++ ys) := by
  cases c with
  | error why =>
    obtain ⟨items, refusal⟩ := w
    cases (h : refusal = some why)
    exact (rfl : some why = some why)
  | ok u =>
    cases (h : w = ⟨xs, none⟩)
    have hw := h' rfl
    show Agrees _ c' _
    cases c' with
    | error why => exact (hw : w'.refusal = some why)
    | ok u =>
      cases (hw : w' = ⟨ys, none⟩)
      exact (rfl : (⟨xs ++ ys, none⟩ : Written) = ⟨xs ++ ys, none⟩)

theorem Agrees.enclosed {w : Written} {c : Except Refusal Unit} {xs : List Item}
    (h : w.Agrees c xs) (keyword : String) (name : Option String) :
    (w.enclosed keyword name).Agrees c [.block keyword name xs] := by
  cases c with
  | error why => exact h
  | ok u =>
    cases (h : w = ⟨xs, none⟩)
    rfl

end Written

namespace Script

variable {parent : String}

theorem append_agrees {s t : Script} {c c' : Except Refusal Unit} {xs ys : List Item}
    (hs : (written parent s).Agrees c xs) (ht : c = .ok () → (written parent t).Agrees c' ys) :
    (written parent (s ++ t)).Agrees (c >>= fun _ => c') (xs ++ ys) := by
  rw [written_append]
  exact hs.andThen ht

theorem block_agrees {keyword : String} {name : Option String} {body : Script}
    {c : Except Refusal Unit} {xs : List Item} (h : (written keyword body).Agrees c xs) :
    (written parent [.block keyword name body]).Agrees c [.block keyword name xs] := by
  rw [written_block]
  exact h.enclosed keyword name

theorem fail_agrees (why : Refusal) (items : List Item) :
    (written parent [.fail why]).Agrees (.error why) items := by
  rw [written_singleton]
  exact Written.agrees_refused why items

/-- A script that goes on with something that cannot fail. -/
theorem append_settled {s t : Script} {c : Except Refusal Unit} {xs ys : List Item}
    (hs : (written parent s).Agrees c xs) (ht : written parent t = ⟨ys, none⟩) :
    (written parent (s ++ t)).Agrees c (xs ++ ys) := by
  have ht' : (written parent t).Agrees (.ok ()) ys := ht
  have h := append_agrees hs fun _ => ht'
  rwa [show (c >>= fun _ => .ok ()) = c from bind_pure c] at h

theorem place_agrees (stanza : String) (allowed : List String) :
    (written parent [.within stanza allowed]).Agrees (checkPlace stanza allowed parent) [] := by
  rw [written_singleton]
  unfold Action.written checkPlace
  split
  · exact Written.agrees_nothing
  · exact Written.agrees_refused _ _

/-- A script that checks its place first. -/
theorem within_agrees {stanza : String} {allowed : List String} {s : Script}
    {c : Except Refusal Unit} {xs : List Item} (h : (written parent s).Agrees c xs) :
    (written parent (.within stanza allowed :: s)).Agrees
      (checkPlace stanza allowed parent >>= fun _ => c) xs :=
  append_agrees (place_agrees stanza allowed) fun _ => h

/-- A script that is only found if something else succeeds. -/
theorem ofExcept_agrees {α : Type} {x : Except Refusal α} {next : α → Except Refusal Script}
    {c : Except Refusal Unit} {xs : List Item} (herr : ∀ why, x = .error why → c = .error why)
    (hok : ∀ a, x = .ok a → (written parent (ofExcept (next a))).Agrees c xs) :
    (written parent (ofExcept (x >>= next))).Agrees c xs := by
  cases h : x with
  | error why =>
    rw [herr why h]
    exact fail_agrees why xs
  | ok a => exact hok a h

/-- A script that agrees with a check adds the items if the check passes, and is refused as it
refuses if it does not. -/
theorem run_of_agrees {s : Script} {d : Draft} {c : Except Refusal Unit} {xs : List Item}
    (hs : Paired s) (hd : d.Aligned) :
    (written d.context.current s).Agrees c xs →
      match c with
      | .ok () => run s d = .done (d.add xs)
      | .error why => ∃ items, run s d = .failed (d.add items) why := by
  intro h
  rw [run_eq_onto s d hs hd]
  cases c with
  | ok u =>
    rw [(h : written d.context.current s = _)]
    rfl
  | error why => exact ⟨_, Written.onto_eq_failed_iff.2 ⟨rfl, h⟩⟩

end Script

/-! ## Values -/

namespace Value

variable (field : String)

mutual
theorem flatten_eq : ∀ v : Value,
    v.flatten field = (v.checkItem field).map fun _ => v.leaves
  | .boolean _ | .integer _ | .text _ | .double _ | .map _ => rfl
  | .list items => by
    rw [flatten, checkItem, leaves]
    exact flattenAll_eq items
/-- Flattening succeeds if the check of items passes, and then yields the leaves. -/
theorem flattenAll_eq : ∀ vs : List Value,
    flattenAll field vs = (checkItems field vs).map fun _ => allLeaves vs
  | [] => rfl
  | v :: vs => by
    rw [flattenAll, checkItems, allLeaves, flatten_eq v, flattenAll_eq vs]
    cases v.checkItem field with
    | error why => rfl
    | ok u => cases checkItems field vs <;> rfl
end

theorem scalar_eq (v : Value) :
    v.scalar field = (v.checkScalar field).map fun _ => v.leaves.headD "" := by
  cases v <;> rfl

end Value

theorem Assign.entries_written (parent : String) (es : Entries String) :
    Script.written parent (es.flatMap fun e => Assign.text e.1 e.2) =
      ⟨Entry.allItems (es.map fun e => Entry.text e.1 e.2), none⟩ := by
  induction es with
  | nil => rfl
  | cons e es ih =>
    rw [List.flatMap_cons, List.map_cons, Script.written_append, ih]
    rfl

theorem Assign.textMap_written (parent key : String) (es : Entries String) :
    Script.written parent (Assign.textMap key es) = ⟨(Entry.textMap key es).items, none⟩ := by
  show Script.written parent [.block key none (es.flatMap fun e => Assign.text e.1 e.2)] = _
  rw [Script.written_block, Assign.entries_written]
  rfl

theorem Kind.assign_written (parent key : String) (k : Kind) (v : k.Carrier) :
    Script.written parent (k.assign key v) = ⟨(k.entry key v).items, none⟩ := by
  cases k with
  | textMap => exact Assign.textMap_written parent key v
  | _ => rfl

theorem Value.assignList_agrees (parent key : String) (v : Value) :
    (Script.written parent (v.assignList key)).Agrees (v.checkItem key)
      (Entry.texts key v.leaves).items := by
  unfold Value.assignList
  rw [Value.flatten_eq]
  cases v.checkItem key with
  | error why => exact Script.fail_agrees why _
  | ok u => rfl

mutual
theorem Value.assign_agrees (parent : String) : ∀ (key : String) (v : Value),
    (Script.written parent (v.assign key)).Agrees (v.checkShape key)
      (Entry.allItems (v.entries key))
  | _, .boolean _ | _, .integer _ => rfl
  | key, .double _ => Script.fail_agrees _ _
  | key, .text s => by
    unfold Value.assign Value.entries
    split <;> rfl
  | key, .list items => by
    have h := Value.assignList_agrees parent key (.list items)
    rw [Value.entries, Entry.allItems_singleton]
    exact h
  | key, .map es => Script.block_agrees (Value.assignAll_agrees key es)
/-- Values by key are written by their shapes if each of them has one. -/
theorem Value.assignAll_agrees (parent : String) : ∀ es : List (String × Value),
    (Script.written parent (Value.assignAll es)).Agrees (Value.checkShapes es)
      (Entry.allItems (Value.allEntries es))
  | [] => Written.agrees_nothing
  | (k, v) :: es => by
    rw [Value.allEntries, Entry.allItems_append]
    exact Script.append_agrees (Value.assign_agrees parent k v)
      fun _ => Value.assignAll_agrees parent es
end

/-! ## Blocks -/

theorem Field.check_agrees (parent : String) (f : Field) (value : Option f.kind.Carrier) :
    (Script.written parent (f.check value)).Agrees (f.checkChoice value) [] := by
  obtain ⟨name, kind, mandatory, required, fallback, choices⟩ := f
  cases kind with
  | text =>
    cases choices with
    | none => exact Written.agrees_nothing
    | some allowed =>
      unfold Field.check Field.checkChoice
      dsimp only
      cases (value <|> fallback : Option String) with
      | none => exact Written.agrees_nothing
      | some s =>
        show (Script.written parent (Script.ofExcept (choose name allowed s >>= fun _ => pure [])))
          |>.Agrees (choose name allowed s) []
        refine Script.ofExcept_agrees (fun why h => h) fun u h => ?_
        rw [h]
        exact Written.agrees_nothing
  | _ => exact Written.agrees_nothing

theorem Field.assign_agrees (parent : String) (f : Field) (value : Option f.kind.Carrier) :
    (Script.written parent (f.assign value)).Agrees (f.checkRequired parent value)
      (Entry.allItems (f.entries value)) := by
  unfold Field.assign Field.checkRequired Field.entries
  cases f.effective value with
  | some v =>
    have hv : Script.written parent (f.kind.assign f.name v) =
        ⟨Entry.allItems [f.kind.entry f.name v], none⟩ := by
      rw [Kind.assign_written, Entry.allItems_singleton]
    cases f.required <;> exact hv
  | none =>
    cases f.required
    · exact Written.agrees_nothing
    · show (Script.written parent [.lacking f.name]).refusal = _
      rw [Script.written_singleton]
      rfl

namespace Record

theorem check_agrees (parent : String) : ∀ {fs : List Field} (r : Record fs),
    (Script.written parent r.check).Agrees r.checkChoices []
  | [], .nil => Written.agrees_nothing
  | f :: _, .cons _ rest =>
    Script.append_agrees (f.check_agrees parent _) fun _ => rest.check_agrees parent

theorem assignments_agrees (parent : String) : ∀ {fs : List Field} (r : Record fs),
    (Script.written parent r.assignments.flatten).Agrees (r.checkRequired parent)
      (Entry.allItems r.entries.flatten)
  | [], .nil => Written.agrees_nothing
  | f :: _, .cons _ rest => by
    rw [assignments, entries, List.flatten_cons, List.flatten_cons, Entry.allItems_append]
    exact Script.append_agrees (f.assign_agrees parent _) fun _ => rest.assignments_agrees parent

theorem checkChoices_of_free : ∀ {fs : List Field} (r : Record fs),
    (∀ f ∈ fs, f.choices = none) → r.checkChoices = .ok ()
  | [], .nil, _ => rfl
  | f :: _, .cons value rest, h => by
    have hf : f.checkChoice value.get? = .ok () := by
      have hnone := h f List.mem_cons_self
      unfold Field.checkChoice
      split
      · cases hnone
      · rfl
    rw [checkChoices, hf]
    exact rest.checkChoices_of_free fun g hg => h g (List.mem_cons_of_mem f hg)

end Record

namespace Stanza

theorem arrange_of_ne {α : Type} {s : Stanza} (h : s ≠ .template) (xs : List α) :
    s.arrange xs = xs := by
  unfold arrange
  split
  · exact absurd rfl h
  · rfl

/-- The order in which a template writes its fields does not change which one is missing first: of
the two that it exchanges, only one is required. -/
theorem exchanged_agrees (parent : String) {mode signal data destination : Field}
    {fs : List Field} (h : data.required = false) :
    ∀ r : Record (mode :: signal :: data :: destination :: fs),
      (Script.written parent (template.arrange r.assignments).flatten).Agrees
        (r.checkRequired parent) (Entry.allItems (template.arrange r.entries).flatten)
  | .cons m (.cons sig (.cons dat (.cons dest rest))) => by
    have hdata : data.checkRequired parent dat.get? = .ok () := by
      unfold Field.checkRequired
      rw [h]
      rfl
    have hexchange : (Record.cons m (.cons sig (.cons dat (.cons dest rest)))).checkRequired parent =
        (do
          mode.checkRequired parent m.get?
          signal.checkRequired parent sig.get?
          destination.checkRequired parent dest.get?
          data.checkRequired parent dat.get?
          rest.checkRequired parent) := by
      simp only [Record.checkRequired, hdata]
      rfl
    rw [hexchange]
    simp only [Record.assignments, Record.entries, arrange, List.flatten_cons,
      Entry.allItems_append]
    refine Script.append_agrees (mode.assign_agrees parent _) fun _ => ?_
    refine Script.append_agrees (signal.assign_agrees parent _) fun _ => ?_
    refine Script.append_agrees (destination.assign_agrees parent _) fun _ => ?_
    refine Script.append_agrees (data.assign_agrees parent _) fun _ => ?_
    exact rest.assignments_agrees parent

theorem assignments_agrees (parent : String) (s : Stanza) (settings : s.Settings) :
    (Script.written parent (s.arrange settings.assignments).flatten).Agrees
      (settings.checkRequired parent) (Entry.allItems (s.arrange settings.entries).flatten) := by
  by_cases h : s = .template
  · subst h
    exact exchanged_agrees parent rfl settings
  · rw [arrange_of_ne h, arrange_of_ne h]
    exact settings.assignments_agrees parent

theorem checkRequired_optional (parent : String) {f : Field} (h : f.required = false) :
    ∀ r : Record [f], r.checkRequired parent = .ok ()
  | .cons value .nil => by
    simp only [Record.checkRequired, Field.checkRequired, h]
    rfl

/-- A block that is written on one line requires nothing. -/
theorem checkRequired_of_isShort {s : Stanza} (h : s.isShort = true) (parent : String)
    (settings : s.Settings) : settings.checkRequired parent = .ok () := by
  cases s with
  | port => exact checkRequired_optional parent rfl settings
  | _ => cases h

/-- **A block is written if its place, its choices, its required fields and its inside are in
order**, in this order. -/
theorem write_agrees (parent : String) (s : Stanza) (label : s.naming.Label)
    (settings : s.Settings) {body : Script} {c : Except Refusal Unit} {inner : List Entry}
    (hbody : (Script.written s.keyword body).Agrees c (Entry.allItems inner))
    (hshort : s.isShort = true → c = .ok ()) :
    (Script.written parent (s.write label settings body)).Agrees
      (do
        checkPlace s.keyword s.parents parent
        settings.checkChoices
        settings.checkRequired s.keyword
        c)
      (s.entry label settings inner).items := by
  refine Script.within_agrees ?_
  rw [← List.nil_append (Entry.items _)]
  refine Script.append_agrees (settings.check_agrees parent) fun _ => ?_
  unfold Stanza.entry
  split
  · rename_i h
    have hs : s.isShort = true := (Bool.and_eq_true_iff.1 h).1
    rw [checkRequired_of_isShort hs, hshort hs]
    rfl
  · refine Script.block_agrees ?_
    rw [Entry.allItems_append]
    exact Script.append_agrees (s.assignments_agrees s.keyword settings) fun _ => hbody

/-- An artifact leaves no choice. -/
theorem artifact_agrees (parent : String) (settings : artifact.Settings) :
    (Script.written parent (artifact.write () settings)).Agrees
      (do
        checkPlace artifact.keyword artifact.parents parent
        settings.checkRequired artifact.keyword)
      (artifact.entry () settings []).items := by
  have hnone : (Script.written artifact.keyword []).Agrees (.ok ()) (Entry.allItems []) := rfl
  have hw := artifact.write_agrees parent () settings hnone nofun
  rw [settings.checkChoices_of_free (by decide)] at hw
  rwa [show (settings.checkRequired artifact.keyword >>= fun _ => .ok ()) = _ from bind_pure _] at hw

end Stanza

/-- A registered artifact is written if there is one and it is in order. -/
theorem Registry.package_agrees (registry : Registry) (parent id : String) :
    (Script.written parent (registry.package id)).Agrees (registry.checkPackage parent id)
      (Entry.allItems (registry.packageEntries id)) := by
  unfold Registry.package Registry.checkPackage Registry.packageEntries
  cases registry.get? id with
  | none => exact Script.fail_agrees _ _
  | some artifact =>
    rw [Entry.allItems_singleton]
    exact Stanza.artifact_agrees parent artifact

/-- The template of credentials has a destination, and leaves no choice. -/
theorem Credentials.write_agrees (parent : String) (c : Credentials) (name : String)
    (paths : List String) :
    (Script.written parent (c.write name paths)).Agrees
      (checkPlace Stanza.template.keyword Stanza.template.parents parent)
      (c.entry name paths).items := by
  have hnone : (Script.written Stanza.template.keyword []).Agrees (.ok ()) (Entry.allItems []) :=
    rfl
  have hw := Stanza.template.write_agrees parent () (c.settings name paths) hnone nofun
  have hsettings : (do
      (c.settings name paths).checkChoices
      (c.settings name paths).checkRequired Stanza.template.keyword
      .ok ()) = (.ok () : Except Refusal Unit) := rfl
  rw [hsettings] at hw
  rwa [show (checkPlace Stanza.template.keyword Stanza.template.parents parent >>= fun _ => .ok ()) =
    _ from bind_pure _] at hw

theorem TextMap.write_agrees (parent : String) (m : TextMap) (es : Entries String) :
    (Script.written parent (m.write es)).Agrees (checkPlace m.keyword m.parents parent)
      (Entry.textMap m.keyword es).items :=
  Script.append_settled (Script.place_agrees m.keyword m.parents)
    (Assign.textMap_written parent m.keyword es)

theorem Header.write_agrees (parent name : String) (values : List String) :
    (Script.written parent (Header.write name values)).Agrees
      (checkPlace Header.keyword ["check"] parent)
      (Entry.block Header.keyword none [.texts name values]).items :=
  Script.append_settled (Script.place_agrees Header.keyword ["check"])
    (rfl : Script.written parent [.block Header.keyword none (Assign.texts name values)] = _)

theorem Scalar.write_agrees (parent : String) (s : Scalar) (value : s.kind.Carrier) :
    (Script.written parent (s.write value)).Agrees
      (do
        checkPlace s.keyword Scalar.parents parent
        s.field.checkChoice (some value))
      (s.kind.entry s.keyword value).items := by
  refine Script.within_agrees ?_
  rw [← List.nil_append (Entry.items _)]
  exact Script.append_settled (s.field.check_agrees parent (some value))
    (Kind.assign_written parent s.keyword s.kind value)

namespace Config

theorem command_agrees (command : Option Value) :
    (Script.written keyword (match command with
      | some (.text s) => Assign.text "command" s
      | some v => [.fail (.unsupportedKind "command" v.kind)]
      | none => [.lacking "command"])).Agrees
      (checkCommand command)
      (Entry.allItems (match command with
        | some (.text s) => [.text "command" s]
        | _ => [])) := by
  cases command with
  | none => exact Script.fail_agrees _ _
  | some v => cases v <;> rfl

theorem args_agrees (args : Option Value) :
    (Script.written keyword (Assign.optional (Value.assignList "args") args)).Agrees
      (checkArgs args)
      (Entry.allItems (match args with
        | some v => [.texts "args" v.leaves]
        | none => [])) := by
  cases args with
  | none => exact Written.agrees_nothing
  | some v =>
    rw [Entry.allItems_singleton]
    exact v.assignList_agrees keyword "args"

theorem writeDefault_agrees (values : Entries Value) :
    (Script.written keyword (writeDefault values)).Agrees (check standardDriver values)
      (Entry.allItems (entries standardDriver values)) := by
  unfold writeDefault check entries
  rw [if_pos rfl, if_pos rfl]
  cases values.keys.find? (· ∉ defaultKeys) with
  | some key => exact Script.fail_agrees _ _
  | none =>
    rw [Entry.allItems_append]
    exact Script.append_agrees (command_agrees _) fun _ => args_agrees _

/-- The settings of a driver are written if its place is right and they suit the driver. -/
theorem write_agrees (parent driver : String) (values : Entries Value) :
    (Script.written parent (write driver values)).Agrees
      (do
        checkPlace keyword ["task"] parent
        check driver values)
      (Entry.block keyword none (entries driver values)).items := by
  refine Script.within_agrees (Script.block_agrees ?_)
  by_cases h : driver = standardDriver
  · rw [h, if_pos rfl]
    exact writeDefault_agrees values
  · rw [if_neg h, check, if_neg h, entries, if_neg h]
    exact Value.assignAll_agrees keyword values

end Config

end JobFile
