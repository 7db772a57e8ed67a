import JobFile.Proofs.Layout.Spine

/-!
# Checks, and scripts that leave nothing behind

* `Action.IsCheck` : an action that passes or refuses, and writes nothing;
* `Script.run_checks`, `Script.visits_checks` : checks in a row leave the draft as it was;
* `Script.Sure`    : a script that is never refused;
* `Script.Clean`   : a script that leaves the draft as it was if it is refused;
* `Script.Clean.after_checks` : so does what is written behind checks;
* `Field.check_isCheck`, `Kind.assign_sure` : the checks of a field, and the assignments of values
  of a fixed kind.
-/

namespace JobFile

/-! ## Checks -/

/-- An action that passes or refuses, and writes nothing. -/
def Action.IsCheck : Action → Prop
  | .within _ _ | .lacking _ | .fail _ => True
  | _ => False

namespace Action

variable {a : Action}

theorem IsCheck.run_cases (h : a.IsCheck) (d : Draft) :
    a.run d = .done d ∨ ∃ why, a.run d = .failed d why := by
  cases a with
  | within stanza allowed =>
    rw [run]
    cases d.context.allow stanza allowed with
    | ok u => exact .inl rfl
    | error why => exact .inr ⟨why, rfl⟩
  | lacking key => exact .inr ⟨_, rfl⟩
  | fail why => exact .inr ⟨why, rfl⟩
  | _ => exact h.elim

theorem IsCheck.eq_of_run (h : a.IsCheck) {d e : Draft} (hrun : a.run d = .done e) : e = d := by
  rcases h.run_cases d with hpass | ⟨why, hfail⟩
  · cases hrun.symm.trans hpass
    rfl
  · cases hrun.symm.trans hfail

theorem IsCheck.visits_eq (h : a.IsCheck) (d : Draft) : a.visits d = [(a, d)] := by
  cases a with
  | within | lacking | fail => rfl
  | _ => exact h.elim

end Action

namespace Script

variable {s t checks : Script}

/-- Checks in a row pass, or one of them refuses; either way the draft stays as it was. -/
theorem run_checks (h : ∀ a ∈ checks, a.IsCheck) (d : Draft) :
    run checks d = .done d ∨ ∃ why, run checks d = .failed d why := by
  induction checks with
  | nil => exact .inl rfl
  | cons a checks ih =>
    rw [run]
    rcases (h a List.mem_cons_self).run_cases d with ha | ⟨why, ha⟩
    · rw [ha]
      exact ih fun b hb => h b (List.mem_cons_of_mem a hb)
    · rw [ha]
      exact .inr ⟨why, rfl⟩

/-- In its place a script goes on with its next check. -/
theorem run_within_fail {d : Draft} {stanza : String} {allowed : List String}
    (h : d.context.current ∈ allowed) (why : Refusal) (rest : Script) :
    run (.within stanza allowed :: .fail why :: rest) d = .failed d why := by
  rw [run, Action.run, Context.allow, if_pos h]
  rfl

theorem visits_checks (h : ∀ a ∈ checks, a.IsCheck) {d : Draft} {v : Action × Draft}
    (hv : v ∈ visits checks d) : v.1.IsCheck ∧ v.2 = d := by
  induction checks with
  | nil => cases hv
  | cons a checks ih =>
    have ha := h a List.mem_cons_self
    rcases mem_visits_cons.1 hv with hv | ⟨e, hrun, hv⟩
    · rw [ha.visits_eq d] at hv
      cases List.mem_singleton.1 hv
      exact ⟨ha, rfl⟩
    · cases ha.eq_of_run hrun
      exact ih (fun b hb => h b (List.mem_cons_of_mem a hb)) hv

/-! ## Scripts that leave nothing behind -/

/-- The script is never refused. -/
def Sure (s : Script) : Prop := ∀ d e why, run s d ≠ .failed e why

/-- The script leaves the draft as it was if it is refused. -/
def Clean (s : Script) : Prop := ∀ d e why, run s d = .failed e why → e = d

theorem Sure.clean (h : Sure s) : Clean s := fun d e why hrun => absurd hrun (h d e why)

theorem sure_nil : Sure [] := nofun

theorem Sure.append (hs : Sure s) (ht : Sure t) : Sure (s ++ t) := by
  intro d e why hrun
  rw [run_append] at hrun
  cases hfirst : run s d with
  | done d' =>
    rw [hfirst] at hrun
    exact ht d' e why hrun
  | failed d' why' => exact hs d d' why' hfirst
  | breached why' =>
    rw [hfirst] at hrun
    cases hrun

theorem sure_line (text : String) : Sure [.line text] := by
  intro d e why hrun
  rw [run, Action.run] at hrun
  cases hline : d.line text <;> rw [hline] at hrun <;> cases hrun

theorem sure_raw (text : String) : Sure [.raw text] := nofun

theorem Sure.block (h : Sure s) (keyword : String) (name : Option String) :
    Sure [.block keyword name s] := by
  intro d e why hrun
  rw [run, Action.run] at hrun
  cases hstart : d.startBlock keyword name with
  | error breach =>
    rw [hstart] at hrun
    cases hrun
  | ok inside =>
    rw [hstart] at hrun
    cases hbody : run s inside with
    | failed d' why' => exact h inside d' why' hbody
    | breached breach =>
      simp [Outcome.ofBreach, Outcome.andThen, hbody, Outcome.closing] at hrun
    | done d' =>
      cases hend : d'.endBlock keyword <;>
        simp [Outcome.ofBreach, Outcome.andThen, hbody, Outcome.closing, hend, run] at hrun

/-- Checks come before anything is written. -/
theorem Clean.after_checks (hs : Clean s) (h : ∀ a ∈ checks, a.IsCheck) :
    Clean (checks ++ s) := by
  intro d e why hrun
  rw [run_append] at hrun
  rcases run_checks h d with hpass | ⟨why', hfail⟩
  · rw [hpass] at hrun
    exact hs d e why hrun
  · rw [hfail] at hrun
    cases hrun
    rfl

theorem Clean.within (hs : Clean s) (stanza : String) (allowed : List String) :
    Clean (.within stanza allowed :: s) := by
  have hcheck : ∀ a ∈ [Action.within stanza allowed], a.IsCheck :=
    List.forall_mem_singleton.2 trivial
  exact hs.after_checks hcheck

theorem clean_ofExcept {x : Except Refusal Script} (h : ∀ s, x = .ok s → Clean s) :
    Clean (ofExcept x) := by
  cases x with
  | ok s => exact h s rfl
  | error why =>
    intro d e why' hrun
    cases hrun
    rfl

end Script

/-! ## Fields -/

theorem Field.ofExcept_choose {name value : String} {allowed : List String}
    (h : value ∉ allowed) :
    Script.ofExcept (choose name allowed value >>= fun _ => pure []) =
      [.fail (.invalidChoice name value allowed)] := by
  rw [choose, if_neg h]
  rfl

theorem Field.check_isCheck (f : Field) (value : Option f.kind.Carrier) :
    ∀ a ∈ f.check value, a.IsCheck := by
  obtain ⟨name, kind, mandatory, required, fallback, choices⟩ := f
  cases kind with
  | text =>
    cases choices with
    | none => exact nofun
    | some allowed =>
      unfold check
      dsimp only
      cases (value <|> fallback : Option String) with
      | none => exact nofun
      | some s =>
        show ∀ a ∈ Script.ofExcept (choose name allowed s >>= fun _ => pure []), a.IsCheck
        cases choose name allowed s with
        | ok u => exact nofun
        | error why => exact List.forall_mem_singleton.2 trivial
  | _ => exact nofun

theorem Record.check_isCheck : ∀ {fs : List Field} (r : Record fs), ∀ a ∈ r.check, a.IsCheck
  | [], .nil => nofun
  | f :: _, .cons _ rest => by
    intro a ha
    rcases List.mem_append.1 ha with ha | ha
    · exact f.check_isCheck _ a ha
    · exact rest.check_isCheck a ha

theorem Assign.textMap_sure (key : String) (es : Entries String) :
    Script.Sure (Assign.textMap key es) := by
  refine Script.Sure.block ?_ key none
  induction es with
  | nil => exact Script.sure_nil
  | cons e es ih => exact Script.Sure.append (s := Assign.text e.1 e.2) (Script.sure_line _) ih

theorem Kind.assign_sure (key : String) (kind : Kind) (v : kind.Carrier) :
    Script.Sure (kind.assign key v) := by
  cases kind with
  | textMap => exact Assign.textMap_sure key v
  | document =>
    refine (Script.sure_line (key ++ " = <<" ++ Assign.endMark)).append ?_
    exact (Script.sure_raw (Text.trimEnd v)).append (Script.sure_raw _)
  | _ => exact Script.sure_line _

end JobFile
