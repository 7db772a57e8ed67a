import JobFile.Block.Assign
import JobFile.Block.Trace

/-!
# Documents in their surroundings

* `Draft.behind`, `Outcome.behind` : the same with a text in front;
* `Script.run_behind`     : a script only adds to the text it finds, and does not look at it;
* `Outcome.Quotes`, `Script.Quoting` : outcomes, scripts that differ in one text only, which is
  written as a document under a key;
* `Script.Quoting.append`, `Script.Quoting.prepend`, `Script.Quoting.block`, `Script.Quoting.step` :
  they still do with anything before, behind and around them;
* `Script.Closed`         : properties that are kept in this way;
* `Surroundings`          : a script with a gap;
* `Surroundings.quoting`  : a document in the gap is written between texts that do not depend on it.

Blocks may be opened and closed in any way here, also out of pairs.
-/

namespace JobFile

/-! ## A text in front -/

/-- A draft with a text in front. -/
def Draft.behind (lead : String) (d : Draft) : Draft := { d with text := lead ++ d.text }

namespace Outcome

/-- An outcome with a text in front of its draft. -/
def behind (lead : String) : Outcome → Outcome
  | .done d => .done (d.behind lead)
  | .failed d why => .failed (d.behind lead) why
  | .breached why => .breached why

end Outcome

namespace Draft

variable (lead : String) (d : Draft)

theorem line_behind (text : String) :
    (d.behind lead).line text = (d.line text).map (behind lead) := by
  unfold line behind
  dsimp only
  split
  · simp only [Except.map, String.append_assoc]
  · rfl

theorem startBlock_behind (keyword : String) (name : Option String) :
    (d.behind lead).startBlock keyword name = (d.startBlock keyword name).map (behind lead) := by
  let spaced : Draft := if d.first then d else { d with text := d.text ++ "\n" }
  have hspaced : (if d.first then d.behind lead
      else { d.behind lead with text := (d.behind lead).text ++ "\n" }) = spaced.behind lead := by
    cases hf : d.first <;> simp [spaced, hf, behind, String.append_assoc]
  show ((if d.first then d.behind lead
    else { d.behind lead with text := (d.behind lead).text ++ "\n" }).line _ >>= _) =
      (spaced.line _ >>= _).map _
  rw [hspaced, line_behind]
  cases spaced.line (headerLine keyword name "\x7b") <;> rfl

theorem endBlock_behind (keyword : String) :
    (d.behind lead).endBlock keyword = (d.endBlock keyword).map (behind lead) := by
  obtain ⟨text, indent, first, context⟩ := d
  cases indent with
  | zero => rfl
  | succ indent =>
    show (context.leave keyword >>= fun c => line _ _) =
      (context.leave keyword >>= fun c => line _ _).map _
    cases context.leave keyword with
    | error why => rfl
    | ok c => exact line_behind lead ⟨text, indent, false, c⟩ _

theorem finish_behind : (d.behind lead).finish = d.finish.map (lead ++ ·) := by
  unfold finish behind
  dsimp only
  split <;> rfl

end Draft

namespace Outcome

variable (lead : String)

theorem ofBreach_behind (x : Except Breach Draft) :
    ofBreach (x.map (Draft.behind lead)) = (ofBreach x).behind lead := by
  cases x <;> rfl

theorem andThen_behind (o : Outcome) {next : Draft → Outcome}
    (h : ∀ d, next (d.behind lead) = (next d).behind lead) :
    (o.behind lead).andThen next = (o.andThen next).behind lead := by
  cases o with
  | done d => exact h d
  | failed d why => rfl
  | breached why => rfl

theorem closing_behind (o : Outcome) (keyword : String) :
    (o.behind lead).closing keyword = (o.closing keyword).behind lead := by
  cases o with
  | done d =>
    show ofBreach ((d.behind lead).endBlock keyword) = _
    rw [Draft.endBlock_behind, ofBreach_behind]
    rfl
  | failed d why =>
    simp only [behind, closing, Draft.endBlock_behind]
    cases d.endBlock keyword <;> rfl
  | breached why => rfl

theorem caughtIf_behind (o : Outcome) (caught : Bool) :
    (o.behind lead).caughtIf caught = (o.caughtIf caught).behind lead := by
  cases o <;> cases caught <;> rfl

end Outcome

mutual
theorem Action.run_behind (lead : String) : ∀ (a : Action) (d : Draft),
    a.run (d.behind lead) = (a.run d).behind lead
  | .line text, d => by
    simp only [Action.run, Draft.line_behind, Outcome.ofBreach_behind]
  | .raw text, d => by
    simp only [Action.run, Draft.raw, Draft.behind, Outcome.behind, String.append_assoc]
  | .startBlock keyword name, d => by
    simp only [Action.run, Draft.startBlock_behind, Outcome.ofBreach_behind]
  | .endBlock keyword, d => by
    simp only [Action.run, Draft.endBlock_behind, Outcome.ofBreach_behind]
  | .block keyword name body, d => by
    have hbody : ∀ e : Draft, (Script.run body (e.behind lead)).closing keyword =
        ((Script.run body e).closing keyword).behind lead := fun e => by
      rw [Script.run_behind lead body e, Outcome.closing_behind]
    simp only [Action.run, Draft.startBlock_behind, Outcome.ofBreach_behind]
    exact Outcome.andThen_behind lead _ hbody
  | .within stanza allowed, d => by
    simp only [Action.run]
    show (match d.context.allow stanza allowed with
      | .ok () => Outcome.done (d.behind lead)
      | .error why => .failed (d.behind lead) why) = _
    cases d.context.allow stanza allowed <;> rfl
  | .lacking key, d => rfl
  | .fail why, d => rfl
  | .step _ caught body, d => by
    simp only [Action.run, Script.run_behind lead body d, Outcome.caughtIf_behind]
/-- **A script only adds to the text that it finds**, and does not look at it. -/
theorem Script.run_behind (lead : String) : ∀ (s : List Action) (d : Draft),
    Script.run s (d.behind lead) = (Script.run s d).behind lead
  | [], d => rfl
  | a :: as, d => by
    rw [Script.run, Script.run, Action.run_behind lead a d]
    exact Outcome.andThen_behind lead _ (Script.run_behind lead as)
end

/-! ## Scripts that quote a text -/

/-- A document as it stands inside the given number of blocks. -/
def Assign.documentText (depth : Nat) (key value : String) : String :=
  indentation depth ++ (key ++ " = <<" ++ endMark ++ "\n")
    ++ (Text.trimEnd value ++ ("\n" ++ endMark ++ "\n"))

/-- Outcomes for every text: either all are the same, and none is a finished draft unless the text
may be passed over, or each has its text as a document, and they are the same before and behind
it. -/
def Outcome.Quotes (key : String) (passed : Prop) (outcome : String → Outcome) : Prop :=
  (∃ o : Outcome, (∀ d, o = .done d → passed) ∧ ∀ t, outcome t = o) ∨
    ∃ (before : String) (depth : Nat) (o : Outcome), ∀ t,
      outcome t = o.behind (before ++ Assign.documentText depth key t)

/-- Scripts for every text that write it as a document, if they come to it, and the same things
before and behind it.  They do not finish without it unless it may be passed over. -/
def Script.Quoting (key : String) (passed : Prop) (write : String → Script) : Prop :=
  ∀ d : Draft, Outcome.Quotes key passed fun t => Script.run (write t) d

namespace Outcome

/-- All fail alike. -/
theorem quotes_failed (key : String) (passed : Prop) (d : Draft) (why : Refusal) :
    Quotes key passed fun _ => .failed d why := by
  refine .inl ⟨.failed d why, ?_, fun _ => rfl⟩
  intro e he
  cases he

theorem quotes_breached (key : String) (passed : Prop) (why : Breach) :
    Quotes key passed fun _ => .breached why := by
  refine .inl ⟨.breached why, ?_, fun _ => rfl⟩
  intro e he
  cases he

/-- What follows does not look at the text, and does not mend a failure unless that may be. -/
theorem Quotes.next {key : String} {passed passed' : Prop} {outcome : String → Outcome}
    (h : Quotes key passed outcome) (next : Outcome → Outcome) (hpassed : passed → passed')
    (hmends : ∀ o d, next o = .done d → passed' ∨ ∃ e, o = .done e)
    (hnext : ∀ lead o, next (o.behind lead) = (next o).behind lead) :
    Quotes key passed' fun t => next (outcome t) := by
  rcases h with ⟨o, hdone, ho⟩ | ⟨before, depth, o, ho⟩
  · refine .inl ⟨next o, fun d hd => ?_, fun t => congrArg next (ho t)⟩
    rcases hmends o d hd with hmay | ⟨e, he⟩
    · exact hmay
    · exact hpassed (hdone e he)
  · exact .inr ⟨before, depth, next o, fun t => (congrArg next (ho t)).trans (hnext _ o)⟩

end Outcome

namespace Script

theorem quoting_document (key : String) : Quoting key False (Assign.document key) := by
  intro d
  by_cases h : d.indent = d.context.depth
  · refine .inr ⟨d.text, d.indent, .done { d with text := "", first := false }, fun t => ?_⟩
    simp [Assign.document, run, Action.run, Draft.line, Draft.raw, h, Outcome.ofBreach,
      Outcome.andThen, Outcome.behind, Draft.behind, Assign.documentText, String.append_assoc]
  · have hrun : ∀ t, run (Assign.document key t) d =
        .breached (.misaligned d.indent d.context.depth) := fun t => by
      simp [Assign.document, run, Action.run, Draft.line, h, Outcome.ofBreach, Outcome.andThen]
    simp only [hrun]
    exact Outcome.quotes_breached key False _

/-- A refusal does not come to any text. -/
theorem quoting_fail (key : String) (passed : Prop) (why : Refusal) :
    Quoting key passed fun _ => [.fail why] :=
  fun d => Outcome.quotes_failed key passed d why

namespace Quoting

variable {key : String} {passed : Prop} {write : String → Script} (h : Quoting key passed write)
include h

theorem prepend (s : Script) : Quoting key passed fun t => s ++ write t := by
  intro d
  simp only [run_append]
  cases run s d with
  | done e => exact h e
  | failed e why => exact Outcome.quotes_failed key passed e why
  | breached why => exact Outcome.quotes_breached key passed why

theorem append (s : Script) : Quoting key passed fun t => write t ++ s := by
  intro d
  simp only [run_append]
  refine (h d).next (·.andThen (run s)) id (fun o e he => ?_)
    fun lead o => o.andThen_behind lead (run_behind lead s)
  cases o with
  | done d => exact .inr ⟨d, rfl⟩
  | failed d why => cases he
  | breached why => cases he

theorem block (keyword : String) (name : Option String) :
    Quoting key passed fun t => [.block keyword name (write t)] := by
  intro d
  simp only [run, Action.run, Outcome.andThen_done]
  cases d.startBlock keyword name with
  | error why => exact Outcome.quotes_breached key passed why
  | ok e =>
    refine (h e).next (·.closing keyword) id (fun o e he => ?_)
      fun lead o => o.closing_behind lead keyword
    cases o with
    | done d => exact .inr ⟨d, rfl⟩
    | failed d why =>
      simp only [Outcome.closing] at he
      split at he <;> cases he
    | breached why => cases he

theorem step (label : String) (caught : Bool) :
    Quoting key (caught ∨ passed) fun t => [.step label caught (write t)] := by
  intro d
  simp only [run, Action.run, Outcome.andThen_done]
  refine (h d).next (·.caughtIf caught) .inr (fun o e he => ?_)
    fun lead o => o.caughtIf_behind lead caught
  cases caught with
  | true => exact .inl (.inl rfl)
  | false => exact .inr ⟨e, by cases o <;> exact he⟩

end Quoting

/-- A property of scripts for every index that refusals have, and that is kept by what stands
before, behind and around them. -/
structure Closed {ι : Type} (P : (ι → Script) → Prop) : Prop where
  fail : ∀ why, P fun _ => [.fail why]
  prepend : ∀ s {write}, P write → P fun i => s ++ write i
  append : ∀ s {write}, P write → P fun i => write i ++ s
  block : ∀ keyword name {write}, P write → P fun i => [.block keyword name (write i)]

theorem quoting_closed (key : String) (passed : Prop) : Closed (Quoting key passed) where
  fail := quoting_fail key passed
  prepend s _ h := h.prepend s
  append s _ h := h.append s
  block keyword name _ h := h.block keyword name

end Script

/-! ## Scripts with a gap -/

/-- A script with a gap, inside any blocks and steps. -/
inductive Surroundings where
  | beside (before after : Script)
  | block (before : Script) (keyword : String) (name : Option String) (inside : Surroundings)
    (after : Script)
  | step (before : Script) (label : String) (caught : Bool) (inside : Surroundings)
    (after : Script)

namespace Surroundings

/-- Fills the gap. -/
def fill : Surroundings → Script → Script
  | .beside before after, s => before ++ (s ++ after)
  | .block before keyword name inside after, s =>
    before ++ ([.block keyword name (inside.fill s)] ++ after)
  | .step before label caught inside after, s =>
    before ++ ([.step label caught (inside.fill s)] ++ after)

/-- Is a failure caught around the gap? -/
def catches : Surroundings → Prop
  | .beside _ _ => False
  | .block _ _ _ inside _ => inside.catches
  | .step _ _ caught inside _ => caught ∨ inside.catches

/-- **What stands around a text that is quoted does not depend on it.** -/
theorem quoting (c : Surroundings) {key : String} {write : String → Script}
    (h : Script.Quoting key False write) :
    Script.Quoting key c.catches fun t => c.fill (write t) := by
  induction c with
  | beside before after => exact (h.append after).prepend before
  | block before keyword name inside after ih =>
    exact ((ih.block keyword name).append after).prepend before
  | step before label caught inside after ih =>
    exact ((ih.step label caught).append after).prepend before

end Surroundings

end JobFile
