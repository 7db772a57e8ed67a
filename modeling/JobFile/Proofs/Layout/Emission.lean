import JobFile.Block.Assign
import JobFile.Proofs.Layout.Pairing

/-!
# Calls that open and close blocks on their own

* `Emission`              : a call that writes to a draft directly, opens a block or closes one;
* `Emission.script`       : the script of such calls in a row;
* `Emission.placeless`    : none of them asks where it stands;
* `Emission.run_brackets` : they meet a breach exactly where a closing does not fit, and complete
  exactly when their brackets are nested.
-/

namespace JobFile

/-- A call that writes to a draft directly. -/
inductive Emission where
  | line (text : String)
  | raw (text : String)
  | emptyBlock (keyword : String) (name : Option String)
  /-- Opens a block and leaves it open. -/
  | startBlock (keyword : String) (name : Option String)
  /-- Closes a block, whoever has opened it. -/
  | endBlock (keyword : String)
  | block (keyword : String) (name : Option String) (body : List Emission)
  /-- A value of a fixed kind, which may be absent. -/
  | value (kind : Kind) (key : String) (value : Option kind.Carrier)
  /-- A value of a fixed kind, which has to be there. -/
  | requiredValue (kind : Kind) (key : String) (value : Option kind.Carrier)
  /-- An untyped value, written by its shape. -/
  | anyValue (key : String) (value : Option Value)
  /-- An untyped value, written as a list. -/
  | listValue (key : String) (value : Option Value)
  /-- A failure of the caller's own. -/
  | fail (why : Refusal)
  /-- Calls whose failure ends nothing but themselves. -/
  | caught (body : List Emission)

namespace Emission

mutual
/-- A call as a step of a script. -/
def action : Emission → Action
  | .line text => .step "line" false [.line text]
  | .raw text => .step "raw" false [.raw text]
  | .emptyBlock keyword name =>
    .step "empty block" false [.line (headerLine keyword name "\x7b\x7d")]
  | .startBlock keyword name => .step "open block" false [.startBlock keyword name]
  | .endBlock keyword => .step "close block" false [.endBlock keyword]
  | .block keyword name body => .step "block" false [.block keyword name (script body)]
  | .value kind key v => .step key false (Assign.optional (kind.assign key) v)
  | .requiredValue kind key v => .step key false (Assign.required key (kind.assign key) v)
  | .anyValue key v => .step key false (Assign.optional (Value.assign key) v)
  | .listValue key v => .step key false (Assign.optional (Value.assignList key) v)
  | .fail why => .step "fail" false [.fail why]
  | .caught body => .step "caught" true (script body)
/-- The script of calls in a row. -/
def script : List Emission → Script
  | [] => []
  | e :: es => e.action :: script es
end

end Emission

/-! ## Values ask for no place -/

theorem Assign.textMap_placeless (key : String) (es : Entries String) :
    Script.Placeless (Assign.textMap key es) := by
  refine ⟨?_, trivial⟩
  show Script.Placeless (es.flatMap fun e => Assign.text e.1 e.2)
  induction es with
  | nil => exact trivial
  | cons e es ih =>
    rw [List.flatMap_cons]
    exact Script.placeless_append.2 ⟨⟨trivial, trivial⟩, ih⟩

theorem Assign.optional_placeless {α : Type} {write : α → Script}
    (h : ∀ a, Script.Placeless (write a)) (value : Option α) :
    Script.Placeless (Assign.optional write value) := by
  cases value with
  | none => exact trivial
  | some a => exact h a

theorem Assign.required_placeless {α : Type} {write : α → Script}
    (h : ∀ a, Script.Placeless (write a)) (key : String) (value : Option α) :
    Script.Placeless (Assign.required key write value) := by
  cases value with
  | none => exact ⟨trivial, trivial⟩
  | some a => exact h a

theorem Kind.assign_placeless (key : String) (kind : Kind) (v : kind.Carrier) :
    Script.Placeless (kind.assign key v) := by
  cases kind with
  | document => exact ⟨trivial, trivial, trivial, trivial⟩
  | textMap => exact Assign.textMap_placeless key v
  | _ => exact ⟨trivial, trivial⟩

theorem Value.assignList_placeless (key : String) (v : Value) :
    Script.Placeless (v.assignList key) := by
  unfold Value.assignList
  split <;> exact ⟨trivial, trivial⟩

mutual
theorem Value.assign_placeless (key : String) : ∀ v : Value, Script.Placeless (v.assign key)
  | .boolean _ | .integer _ | .double _ => ⟨trivial, trivial⟩
  | .text s => by
    unfold Value.assign
    split <;> exact ⟨trivial, trivial⟩
  | .list items => Value.assignList_placeless key (.list items)
  | .map es => ⟨Value.assignAll_placeless es, trivial⟩
theorem Value.assignAll_placeless : ∀ es : List (String × Value),
    Script.Placeless (Value.assignAll es)
  | [] => trivial
  | (k, v) :: es =>
    Script.placeless_append.2 ⟨Value.assign_placeless k v, Value.assignAll_placeless es⟩
end

namespace Emission

mutual
theorem action_placeless : ∀ e : Emission, e.action.Placeless
  | .line _ | .raw _ | .emptyBlock _ _ | .startBlock _ _ | .endBlock _ | .fail _ =>
    ⟨trivial, trivial⟩
  | .block _ _ body => ⟨placeless body, trivial⟩
  | .value kind key v => Assign.optional_placeless (kind.assign_placeless key) v
  | .requiredValue kind key v => Assign.required_placeless (kind.assign_placeless key) key v
  | .anyValue key v => Assign.optional_placeless (Value.assign_placeless key) v
  | .listValue key v => Assign.optional_placeless (Value.assignList_placeless key) v
  | .caught body => placeless body
/-- None of the calls asks where it stands. -/
theorem placeless : ∀ es : List Emission, Script.Placeless (script es)
  | [] => trivial
  | e :: es => ⟨action_placeless e, placeless es⟩
end

end Emission

/-! ## Where a run leads -/

namespace Outcome

open JobFile.Bracket

variable {o : Outcome} {c : Course}

theorem frame_ended (e : Draft) (refusal : Option Refusal) :
    (ended e refusal).frame = .ok (e.context.opened, refusal.isSome) := by
  cases refusal <;> rfl

/-- What a run leaves open is what its brackets do not close, and it fails if they are cut off. -/
theorem unclosed_of_ended {e : Draft} {refusal : Option Refusal} (h : o.frame = c.frame [])
    (ho : o = ended e refusal) :
    Unclosed c.brackets e.context.opened ∧ refusal.isSome = c.fails := by
  rw [ho, frame_ended] at h
  obtain ⟨hfollow, hfails⟩ := follow_of_frame (rfl : follow [] [] = .ok []) h.symm
  exact ⟨unclosed_of_follow hfollow, hfails.symm⟩

theorem breached_iff (h : o.frame = c.frame []) {why : Breach} :
    o = .breached why ↔ follow [] c.brackets = .error why := by
  unfold Course.frame at h
  cases hfollow : follow [] c.brackets <;> rw [hfollow] at h <;> cases o <;>
    simp_all [frame, Except.map]

/-- A document can be finished if every block has been closed. -/
theorem finish_cases (h : o.frame = c.frame []) :
    (∃ why, follow [] c.brackets = .error why ∧ o.finish = .error why) ∨
      (∃ text, follow [] c.brackets = .ok [] ∧ o.finish = .ok text) ∨
      ∃ keyword around, follow [] c.brackets = .ok (keyword :: around) ∧
        o.finish = .error (.stillOpen keyword) := by
  cases o with
  | breached why => exact .inl ⟨why, (breached_iff h).1 rfl, rfl⟩
  | done e | failed e why =>
    obtain ⟨hfollow, -⟩ := follow_of_frame (rfl : follow [] [] = .ok []) h.symm
    obtain ⟨text, indent, first, ⟨opened⟩⟩ := e
    cases opened with
    | nil => exact .inr (.inl ⟨text, hfollow, rfl⟩)
    | cons keyword around => exact .inr (.inr ⟨keyword, around, hfollow, rfl⟩)

theorem finish_eq_stillOpen_iff (h : o.frame = c.frame []) {keyword : String} :
    o.finish = .error (.stillOpen keyword) ↔ ∃ around, Unclosed c.brackets (keyword :: around) := by
  obtain ⟨why, hfollow, ho⟩ | ⟨text, hfollow, ho⟩ | ⟨innermost, around, hfollow, ho⟩ :=
    finish_cases h
  all_goals simp only [ho, ← follow_eq_ok_iff, hfollow]
  · constructor
    · rintro ⟨⟩
      obtain ⟨_, _, _, _, -, -, hmisfit⟩ := follow_eq_error_iff.1 hfollow
      cases hmisfit
    · rintro ⟨_, ⟨⟩⟩
  · exact ⟨nofun, nofun⟩
  · constructor
    · rintro ⟨⟩
      exact ⟨around, rfl⟩
    · rintro ⟨_, ⟨⟩⟩
      rfl

theorem finish_ok_iff (h : o.frame = c.frame []) :
    (∃ text, o.finish = .ok text) ↔ Nested c.brackets := by
  have hnested : Nested c.brackets ↔ follow [] c.brackets = .ok [] :=
    ⟨fun hw => hw.follow_eq [], fun hw => nested_of_unclosed (unclosed_of_follow hw)⟩
  obtain ⟨why, hfollow, ho⟩ | ⟨text, hfollow, ho⟩ | ⟨innermost, around, hfollow, ho⟩ :=
    finish_cases h
  · simp [hnested, ho, hfollow]
  · simp [hnested, ho, hfollow]
  · simp [hnested, ho, hfollow]

end Outcome

namespace Emission

open JobFile.Bracket

/-- **Calls on a fresh draft go by the word of their brackets alone.**  At every action that they
come to, the indentation is the number of open blocks, which is the number of openings less that of
closings so far, and the open blocks are those that the brackets so far leave unclosed; the same
holds of the draft that is left, well or with a failure that nothing has caught.  A breach is met if
and only if some closing does not fit: where no block is open the indentation runs out, and elsewhere
the innermost block is named, so no line is ever misaligned and the blocks never run out first.
Finishing names the innermost block that is still open, and succeeds if and only if the brackets are
nested. -/
theorem run_brackets (es : List Emission) :
    let s := script es
    let w := (Script.course s).brackets
    (∀ (i : Nat) (a : Action) (d : Draft), (Script.visits s {})[i]? = some (a, d) →
      ∃ u, (Script.spots [] s)[i]? = some (a, u) ∧ Unclosed u d.context.opened ∧
        d.indent = d.context.depth ∧ opens u = closes u + d.indent) ∧
    (∀ (e : Draft) (refusal : Option Refusal), Script.run s {} = .ended e refusal →
      Unclosed w e.context.opened ∧ e.indent = e.context.depth ∧
        opens w = closes w + e.indent ∧ refusal.isSome = (Script.course s).fails) ∧
    (∀ why, Script.run s {} = .breached why ↔ ∃ u keyword v keywords,
      w = u ++ .closing keyword :: v ∧ Unclosed u keywords ∧ Misfit keywords keyword why) ∧
    (∀ keyword, (Script.run s {}).finish = .error (.stillOpen keyword) ↔
      ∃ around, Unclosed w (keyword :: around)) ∧
    ((∃ text, (Script.run s {}).finish = .ok text) ↔ Nested w) := by
  intro s w
  have hplaceless : Script.Placeless s := placeless es
  have hroot : Draft.Aligned {} := rfl
  have hframe : (Script.run s {}).frame = (Script.course s).frame [] :=
    Script.run_frame s {} hplaceless hroot
  refine ⟨fun i a d hvisit => ?_, fun e refusal hrun => ?_, fun why => ?_, fun keyword => ?_, ?_⟩
  · have hreaches := Script.visits_spots s {} [] hplaceless hroot rfl
    obtain ⟨spot, hspot, haction, haligned, hfollow⟩ := hreaches.getElem? hvisit
    have hopened := unclosed_of_follow hfollow
    have ha : a = spot.1 := haction
    exact ⟨spot.2, by rw [hspot, ha], hopened, haligned,
      (haligned : d.indent = _) ▸ hopened.opens_eq⟩
  · obtain ⟨hopened, hfails⟩ := Outcome.unclosed_of_ended hframe hrun
    have haligned := Outcome.leaves_of_ended (Script.run_aligned s {} hroot) hrun
    exact ⟨hopened, haligned, haligned ▸ hopened.opens_eq, hfails⟩
  · rw [Outcome.breached_iff hframe, follow_eq_error_iff]
  · exact Outcome.finish_eq_stillOpen_iff hframe
  · exact Outcome.finish_ok_iff hframe

/-- A body may close its own block, if it opens another one of that keyword instead. -/
example :
    (Script.run (script [.block "a" none [.endBlock "a", .startBlock "a" none]]) {}).finish =
      .ok "a \x7b\n\x7d\n\na \x7b\n\x7d\n" := by
  decide

end Emission

end JobFile
