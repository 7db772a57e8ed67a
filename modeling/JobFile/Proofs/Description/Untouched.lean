import JobFile.Proofs.Description.Guarded
import JobFile.Proofs.Description.Rendering
import JobFile.Proofs.Layout.Checks
import JobFile.Proofs.Value.Flattened

/-!
# Failed checks leave the draft as it was

* `Keyword.WritesAtOnce` : the stanzas that hold no others and are written as a whole;
* `Node.script_clean`    : a node of them leaves nothing behind if it is refused;
* `Call.Barred`          : a call is refused by what it asks before it writes;
* `failed_checks_leave_draft` : refused values, calls and nodes of these leave nothing behind.

The whole draft is compared, so not even a blank line is owed afterwards.  Where a block is opened
before something in it is refused, the block remains; no such call is spoken of here.
-/

namespace JobFile

/-! ## What is written at once -/

theorem Scalar.write_clean (s : Scalar) (value : s.kind.Carrier) :
    Script.Clean (s.write value) := by
  have hassign := (s.kind.assign_sure s.keyword value).clean
  exact (hassign.after_checks (s.field.check_isCheck (some value))).within s.keyword parents

theorem TextMap.write_clean (m : TextMap) (es : Entries String) : Script.Clean (m.write es) :=
  Script.Clean.within (Assign.textMap_sure m.keyword es).clean m.keyword m.parents

theorem Header.write_clean (name : String) (values : List String) :
    Script.Clean (Header.write name values) :=
  Script.Clean.within ((Script.sure_line _).block keyword none).clean keyword ["check"]

/-- A stanza that holds no others and is written as a whole, or not at all. -/
def Keyword.WritesAtOnce : Keyword → Prop
  | .scalar _ | .textMap _ | .header => True
  | _ => False

namespace Node

variable (registry : Registry) (driver : String) (n : Node) {k : Keyword}

theorem script_of_writesAtOnce (hk : Keyword.ofText? n.stanza = some k) (h : k.WritesAtOnce) :
    n.script registry driver = n.plainScript registry driver k := by
  obtain ⟨stanza, name, value, values, children, fields⟩ := n
  change Keyword.ofText? stanza = some k at hk
  rw [script]
  cases k with
  | scalar | textMap | header => simp only [hk]
  | _ => exact h.elim

/-- A node that is written at once leaves nothing behind if it is refused. -/
theorem script_clean (hk : Keyword.ofText? n.stanza = some k) (h : k.WritesAtOnce) :
    Script.Clean (n.script registry driver) := by
  rw [n.script_of_writesAtOnce registry driver hk h]
  cases k with
  | scalar s =>
    refine Script.clean_ofExcept fun t ht => ?_
    obtain ⟨value, -, hvalue⟩ := ok_of_bind ht
    cases hvalue
    exact s.write_clean value
  | textMap m =>
    refine Script.clean_ofExcept fun t ht => ?_
    obtain ⟨es, -, hes⟩ := ok_of_bind ht
    cases hes
    exact m.write_clean es
  | header =>
    refine Script.clean_ofExcept fun t ht => ?_
    obtain ⟨name, -, hrest⟩ := ok_of_bind ht
    obtain ⟨values, -, hvalues⟩ := ok_of_bind hrest
    cases hvalues
    exact Header.write_clean name values
  | _ => exact h.elim

/-- A node that is written at once is added as a whole if it is accepted, and not at all if it is
not. -/
theorem run_of_writesAtOnce (hk : Keyword.ofText? n.stanza = some k) (h : k.WritesAtOnce)
    {d : Draft} (hd : d.Aligned) :
    match n.check registry d.context.current driver with
    | .ok () => Script.run (n.script registry driver) d =
        .done (d.add (Entry.allItems (n.tree registry driver)))
    | .error why => Script.run (n.script registry driver) d = .failed d why := by
  have hrun := Script.run_of_agrees (n.script_paired registry driver) hd
    (n.script_agrees registry d.context.current driver)
  cases hcheck : n.check registry d.context.current driver with
  | ok u =>
    rw [hcheck] at hrun
    exact hrun
  | error why =>
    rw [hcheck] at hrun
    obtain ⟨items, hfailed⟩ := hrun
    rw [n.script_clean registry driver hk h d _ why hfailed] at hfailed
    exact hfailed

end Node

/-! ## Values and calls -/

/-- A value that is no map is refused before a line of it is written, or it is a single line. -/
theorem Value.run_assign_of_ne_map {v : Value} (h : v.kind ≠ .map) (key : String) (d : Draft) :
    match v.flatten key with
    | .ok _ => Script.Sure (v.assign key)
    | .error why => Script.run (v.assign key) d = .failed d why := by
  cases v with
  | boolean | integer => exact Script.sure_line _
  | double => rfl
  | text s =>
    show Script.Sure (if Text.denotesInteger s then _ else _)
    split <;> exact Script.sure_line _
  | list vs =>
    show match (Value.list vs).flatten key with
      | .ok _ => Script.Sure ((Value.list vs).assignList key)
      | .error why => Script.run ((Value.list vs).assignList key) d = .failed d why
    unfold Value.assignList
    cases (Value.list vs).flatten key with
    | ok ss => exact Script.sure_line _
    | error why => rfl
  | map => exact absurd rfl h

theorem Value.run_assignList_of_error {v : Value} {key : String} {why : Refusal}
    (h : v.flatten key = .error why) (d : Draft) :
    Script.run (v.assignList key) d = .failed d why := by
  unfold assignList
  rw [h]
  rfl

namespace Call

/-- A call is refused, in a block of the given keyword, by what it asks before it writes. -/
inductive Barred (registry : Registry) (parent : String) : Call → Refusal → Prop
  /-- No artifact is registered under the name. -/
  | unknown {id : String} (h : registry.get? id = none) :
    Barred registry parent (.package id) (.unknownArtifact id)
  /-- The stanza may not stand in the block. -/
  | misplaced {c : Call} {stanza : String} {allowed : List String}
    (hplace : c.place? = some (stanza, allowed)) (hknown : c.IsKnown registry)
    (h : parent ∉ allowed) : Barred registry parent c (.misplaced stanza allowed)
  /-- There is no such type of jobs. -/
  | type {type : String} (hplace : parent ∈ Scalar.parents) (h : type ∉ Scalar.types) :
    Barred registry parent (.scalar .type type) (.invalidChoice "type" type Scalar.types)
  /-- A parameterized job knows no such payload. -/
  | payload {payload : String} {metas : Record Stanza.parameterized.fields.tail} (body : Program)
    (hplace : parent ∈ Stanza.parameterized.parents) (h : payload ∉ Stanza.payloads) :
    Barred registry parent (.stanza .parameterized () (.cons (some payload) metas) body)
      (.invalidChoice "payload" payload Stanza.payloads)

variable {registry : Registry} {parent : String} {c : Call} {why : Refusal}

/-- What bars a call is a check among those with which it begins. -/
theorem Barred.checks (h : c.Barred registry parent why) :
    ∃ label checks rest, c.action registry = .step label false (checks ++ rest) ∧
      (∀ a ∈ checks, a.IsCheck) ∧
      ∀ d : Draft, d.context.current = parent → Script.run checks d = .failed d why := by
  cases h with
  | @unknown id h =>
    refine ⟨"package", [.fail (.unknownArtifact id)], [], ?_, ?_, fun d _ => rfl⟩
    · rw [action, Registry.package, h]
      rfl
    · simp [Action.IsCheck]
  | @misplaced _ stanza allowed hplace hknown h =>
    obtain ⟨label, rest, haction⟩ := action_guarded registry hplace hknown
    refine ⟨label, [.within stanza allowed], rest, haction, by simp [Action.IsCheck], ?_⟩
    rintro d rfl
    have hrefused : d.context.allow stanza allowed = .error (.misplaced stanza allowed) := if_neg h
    rw [Script.run, Action.run, hrefused]
    rfl
  | @type type hplace h =>
    refine ⟨"type", .within "type" Scalar.parents :: Scalar.type.field.check (some type),
      Scalar.type.field.assign (some type), rfl, ?_, ?_⟩
    · exact List.forall_mem_cons.2 ⟨trivial, Scalar.type.field.check_isCheck _⟩
    · rintro d rfl
      have hcheck : Scalar.type.field.check (some type) =
          [.fail (.invalidChoice "type" type Scalar.types)] := Field.ofExcept_choose h
      rw [hcheck]
      exact Script.run_within_fail hplace _ _
  | @payload payload metas body hplace h =>
    refine ⟨"parameterized", .within "parameterized" Stanza.parameterized.parents ::
      (Record.cons (some payload) metas : Stanza.parameterized.Settings).check, _, rfl, ?_, ?_⟩
    · exact List.forall_mem_cons.2 ⟨trivial, Record.check_isCheck _⟩
    · rintro d rfl
      have hcheck : (Record.cons (some payload) metas : Stanza.parameterized.Settings).check =
          [.fail (.invalidChoice "payload" payload Stanza.payloads)] ++ metas.check :=
        congrArg (· ++ metas.check) (Field.ofExcept_choose h)
      rw [hcheck]
      exact Script.run_within_fail hplace _ _

/-- A barred call leaves the draft as it was, and comes to nothing but its checks. -/
theorem Barred.run_eq {d : Draft} (h : c.Barred registry d.context.current why) :
    (c.action registry).run d = .failed d why ∧
      ∀ v ∈ (c.action registry).visits d,
        v = (c.action registry, d) ∨ v.1.IsCheck ∧ v.2 = d := by
  obtain ⟨label, checks, rest, haction, hchecks, hrun⟩ := h.checks
  have hfailed : Script.run checks d = .failed d why := hrun d rfl
  rw [haction]
  constructor
  · rw [Action.run, Script.run_append, hfailed]
    rfl
  · intro v hv
    rw [Action.visits, Script.visits_append, hfailed, List.append_nil] at hv
    exact (List.mem_cons.1 hv).imp id (Script.visits_checks hchecks)

end Call

/-- **What is refused before it is written leaves the draft as it was**, in every draft: a value
that has to be there and is absent, a list with a double or a map in it, another value without a
shape unless it is a map, and a call that is barred, whose block is not even begun.  A node that is
written at once is added as a whole or not at all. -/
theorem failed_checks_leave_draft (registry : Registry) (d : Draft) :
    (∀ kind key, ((Call.requiredValue kind key none).action registry).run d =
      .failed d (.missingValue d.context.current key)) ∧
    (∀ key (v : Value), ¬v.Listable → ∃ p w, v.IsLeftmost p w ∧
      ((Call.listValue key (some v)).action registry).run d =
        .failed d (.unsupportedKind key w.kind) ∧
      (v.kind ≠ .map → ((Call.anyValue key (some v)).action registry).run d =
        .failed d (.unsupportedKind key w.kind))) ∧
    (∀ key (v : Value) e why, v.kind ≠ .map →
      ((Call.anyValue key (some v)).action registry).run d = .failed e why → ¬v.Listable) ∧
    (∀ (c : Call) why, c.Barred registry d.context.current why →
      (c.action registry).run d = .failed d why ∧
        ∀ v ∈ (c.action registry).visits d,
          v = (c.action registry, d) ∨ v.1.IsCheck ∧ v.2 = d) ∧
    ∀ (n : Node) driver k, Keyword.ofText? n.stanza = some k → k.WritesAtOnce →
      Script.Clean (n.script registry driver) ∧
        (d.Aligned → match n.check registry d.context.current driver with
          | .ok () => Script.run (n.script registry driver) d =
              .done (d.add (Entry.allItems (n.tree registry driver)))
          | .error why => Script.run (n.script registry driver) d = .failed d why) := by
  have hstep : ∀ (label : String) (s : Script),
      (Action.step label false s).run d = Script.run s d := by
    intro label s
    rw [Action.run, Outcome.caughtIf_false]
  refine ⟨fun kind key => rfl, fun key v hv => ?_, fun key v e why hmap hrun hlistable => ?_,
    fun c why h => h.run_eq, fun n driver k hk honce => ?_⟩
  · obtain ⟨p, w, hleftmost, herror⟩ := v.flatten_of_not_listable key hv
    refine ⟨p, w, hleftmost, ?_, fun hmap => ?_⟩
    · exact (hstep key _).trans (Value.run_assignList_of_error herror d)
    · have hassign := Value.run_assign_of_ne_map hmap key d
      rw [herror] at hassign
      exact (hstep key _).trans hassign
  · have hok := (Value.flatten_eq_ok_iff key).2 ⟨hlistable, v.lists_leaves⟩
    have hsure := Value.run_assign_of_ne_map hmap key d
    rw [hok] at hsure
    exact (hsure : Script.Sure (v.assign key)) d e why ((hstep key _).symm.trans hrun)
  · exact ⟨n.script_clean registry driver hk honce, n.run_of_writesAtOnce registry driver hk honce⟩

/-- A list whose last item holds a map. -/
def listWithMap : Value := .list [.text "a", .list [.integer 1, .map []]]

theorem listWithMap_not_listable : ¬listWithMap.Listable := by
  intro h
  have hinner : Value.Within (.map []) (.list [.integer 1, .map []]) :=
    .item (List.mem_cons_of_mem _ List.mem_cons_self) .here
  exact h _ (.item (List.mem_cons_of_mem _ List.mem_cons_self) hinner) (.inr rfl)

theorem failed_checks_leave_draft_in_job :
    let d := ({} : Draft).opened "job" (some "j")
    (∃ kind, ((Call.anyValue "k" (some listWithMap)).action {}).run d =
      .failed d (.unsupportedKind "k" kind)) ∧
    ¬(Value.double 0.5).Listable ∧
    ((Call.scalar .type "nightly").action {}).run d =
      .failed d (.invalidChoice "type" "nightly" Scalar.types) ∧
    Script.run (Node.script {} "exec" { stanza := "type", value := some (.text "nightly") }) d =
      .failed d (.invalidChoice "type" "nightly" Scalar.types) := by
  intro d
  obtain ⟨-, hlist, hany, hbarred, hnode⟩ := failed_checks_leave_draft {} d
  have haligned : d.Aligned := Draft.Aligned.opened (d := {}) rfl "job" (some "j")
  obtain ⟨p, w, -, -, hmap⟩ := hlist "k" listWithMap listWithMap_not_listable
  refine ⟨⟨w.kind, hmap nofun⟩, ?_, ?_, ?_⟩
  · exact hany "k" (.double 0.5) d (.unsupportedKind "k" .double) nofun rfl
  · exact (hbarred _ _ (.type (by decide) (by decide))).1
  · exact (hnode { stanza := "type", value := some (.text "nightly") } "exec" (.scalar .type)
      (by decide) trivial).2 haligned

end JobFile
