import JobFile.Proofs.Layout.Balance
import JobFile.Proofs.Layout.Surroundings

/-!
# Scripts that end alike

* `Draft.bare`, `Outcome.bare` : a draft, an outcome without its text;
* `Script.run_bare`            : how a script ends does not depend on the text before it;
* `Script.Alike`               : two scripts end in the same way, whatever they write;
* `Script.Alike.append`, `Script.Alike.block`, `Script.Alike.step` : and go on doing so;
* `Script.document_alike`      : a document ends like nothing at all;
* `Surroundings.fill_alike`    : it makes no difference how a gap is filled, if what fills it ends
  alike.

The indentation and the open blocks decide how a script ends.  In drafts that are reached they
agree, so that a line can always be written.
-/

namespace JobFile

/-! ## Without the text -/

/-- A draft without its text. -/
def Draft.bare (d : Draft) : Draft := { d with text := "", first := true }

namespace Outcome

/-- An outcome without the text of its draft. -/
def bare : Outcome → Outcome
  | .done d => .done d.bare
  | .failed d why => .failed d.bare why
  | .breached why => .breached why

end Outcome

namespace Draft

variable (d : Draft)

theorem line_bare (text : String) : (d.bare.line text).map bare = (d.line text).map bare := by
  unfold line bare
  dsimp only
  split <;> rfl

theorem startBlock_bare (keyword : String) (name : Option String) :
    (d.bare.startBlock keyword name).map bare = (d.startBlock keyword name).map bare := by
  obtain ⟨text, indent, first, context⟩ := d
  by_cases h : indent = context.depth <;> cases first <;>
    simp [startBlock, line, bare, h, Except.map, bind, Except.bind, pure, Except.pure]

theorem endBlock_bare (keyword : String) :
    (d.bare.endBlock keyword).map bare = (d.endBlock keyword).map bare := by
  obtain ⟨text, indent, first, context⟩ := d
  cases indent with
  | zero => rfl
  | succ indent =>
    show (context.leave keyword >>= fun c => line _ _).map bare =
      (context.leave keyword >>= fun c => line _ _).map bare
    cases context.leave keyword with
    | error why => rfl
    | ok c => exact line_bare ⟨text, indent, false, c⟩ _

end Draft

namespace Outcome

theorem ofBreach_bare (x : Except Breach Draft) :
    (ofBreach x).bare = ofBreach (x.map Draft.bare) := by
  cases x <;> rfl

theorem andThen_bare (o : Outcome) {next : Draft → Outcome}
    (h : ∀ d, (next d.bare).bare = (next d).bare) :
    (o.bare.andThen next).bare = (o.andThen next).bare := by
  cases o with
  | done d => exact h d
  | failed d why => rfl
  | breached why => rfl

theorem closing_bare (o : Outcome) (keyword : String) :
    (o.bare.closing keyword).bare = (o.closing keyword).bare := by
  cases o with
  | done d =>
    show (ofBreach (d.bare.endBlock keyword)).bare = (ofBreach (d.endBlock keyword)).bare
    rw [ofBreach_bare, ofBreach_bare, Draft.endBlock_bare]
  | failed d why =>
    have h := d.endBlock_bare keyword
    simp only [bare, closing]
    cases hd : d.endBlock keyword <;> cases hb : d.bare.endBlock keyword <;>
      rw [hd, hb] at h <;> simp_all [Except.map]
  | breached why => rfl

theorem caughtIf_bare (o : Outcome) (caught : Bool) :
    o.bare.caughtIf caught = (o.caughtIf caught).bare := by
  cases o <;> cases caught <;> rfl

end Outcome

mutual
theorem Action.run_bare : ∀ (a : Action) (d : Draft), (a.run d.bare).bare = (a.run d).bare
  | .line text, d => by
    simp only [Action.run, Outcome.ofBreach_bare, Draft.line_bare]
  | .raw text, d => rfl
  | .startBlock keyword name, d => by
    simp only [Action.run, Outcome.ofBreach_bare, Draft.startBlock_bare]
  | .endBlock keyword, d => by
    simp only [Action.run, Outcome.ofBreach_bare, Draft.endBlock_bare]
  | .block keyword name body, d => by
    have hbody : ∀ e : Draft, ((Script.run body e.bare).closing keyword).bare =
        ((Script.run body e).closing keyword).bare := fun e => by
      rw [← Outcome.closing_bare, Script.run_bare body e, Outcome.closing_bare]
    have hstart := (Outcome.ofBreach_bare (d.bare.startBlock keyword name)).trans
      ((congrArg Outcome.ofBreach (d.startBlock_bare keyword name)).trans
        (Outcome.ofBreach_bare (d.startBlock keyword name)).symm)
    simp only [Action.run]
    rw [← Outcome.andThen_bare _ hbody, hstart, Outcome.andThen_bare _ hbody]
  | .within stanza allowed, d => by
    simp only [Action.run]
    show (match d.context.allow stanza allowed with
      | .ok () => Outcome.done d.bare
      | .error why => .failed d.bare why).bare = _
    cases d.context.allow stanza allowed <;> rfl
  | .lacking key, d => rfl
  | .fail why, d => rfl
  | .step _ caught body, d => by
    simp only [Action.run, ← Outcome.caughtIf_bare, Script.run_bare body d]
/-- **How a script ends does not depend on the text before it.** -/
theorem Script.run_bare : ∀ (s : List Action) (d : Draft),
    (Script.run s d.bare).bare = (Script.run s d).bare
  | [], d => rfl
  | a :: as, d => by
    have has := Script.run_bare as
    simp only [Script.run]
    rw [← Outcome.andThen_bare _ has, Action.run_bare a d, Outcome.andThen_bare _ has]
end

/-! ## Scripts that end alike -/

/-- Two scripts end in the same way, with the same blocks open, whatever they have written. -/
def Script.Alike (s s' : Script) : Prop :=
  ∀ d : Draft, d.Aligned → (run s d).bare = (run s' d).bare

namespace Script

theorem Alike.refl (s : Script) : Alike s s := fun _ _ => rfl

theorem document_alike (key t : String) : Alike (Assign.document key t) [] := by
  intro d hd
  have h : d.indent = d.context.depth := hd
  simp [Assign.document, run, Action.run, Draft.line, Draft.raw, h, Outcome.ofBreach,
    Outcome.andThen, Outcome.bare, Draft.bare]

namespace Alike

variable {s s' t t' : Script}

theorem symm (h : Alike s s') : Alike s' s := fun d hd => (h d hd).symm

theorem trans (h : Alike s s') (h' : Alike s' t) : Alike s t :=
  fun d hd => (h d hd).trans (h' d hd)

theorem append (hs : Alike s s') (ht : Alike t t') : Alike (s ++ t) (s' ++ t') := by
  intro d hd
  have hfirst : ((run s d).andThen (run t)).bare = ((run s' d).andThen (run t)).bare := by
    rw [← Outcome.andThen_bare _ (run_bare t), hs d hd, Outcome.andThen_bare _ (run_bare t)]
  have haligned := run_aligned s' d hd
  rw [run_append, run_append, hfirst]
  cases hrun : run s' d with
  | done e =>
    rw [hrun] at haligned
    exact ht e haligned
  | failed e why => rfl
  | breached why => rfl

theorem block (hs : Alike s s') (keyword : String) (name : Option String) :
    Alike [.block keyword name s] [.block keyword name s'] := by
  intro d hd
  have hrun : ∀ body : Script, run [.block keyword name body] d =
      (run body (d.opened keyword name)).closing keyword := fun body => by
    simp only [run, Action.run, Outcome.andThen_done, Draft.startBlock_eq_opened hd]
    rfl
  rw [hrun, hrun, ← Outcome.closing_bare, hs _ (hd.opened keyword name), Outcome.closing_bare]

theorem step (hs : Alike s s') (label : String) (caught : Bool) :
    Alike [.step label caught s] [.step label caught s'] := by
  intro d hd
  simp only [run, Action.run, Outcome.andThen_done]
  rw [← Outcome.caughtIf_bare, hs d hd, Outcome.caughtIf_bare]

end Alike

theorem alike_closed (ι : Type) : Closed fun write : ι → Script => ∀ i j, Alike (write i) (write j)
    where
  fail why _ _ := .refl [.fail why]
  prepend s _ h i j := (Alike.refl s).append (h i j)
  append s _ h i j := (h i j).append (.refl s)
  block keyword name _ h i j := (h i j).block keyword name

end Script

/-- **It makes no difference how a gap is filled**, if what fills it ends alike. -/
theorem Surroundings.fill_alike (c : Surroundings) {s s' : Script} (h : Script.Alike s s') :
    Script.Alike (c.fill s) (c.fill s') := by
  induction c with
  | beside before after =>
    exact (Script.Alike.refl before).append (h.append (.refl after))
  | block before keyword name inside after ih =>
    exact (Script.Alike.refl before).append ((ih.block keyword name).append (.refl after))
  | step before label caught inside after ih =>
    exact (Script.Alike.refl before).append ((ih.step label caught).append (.refl after))

end JobFile
