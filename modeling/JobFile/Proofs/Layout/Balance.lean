import JobFile.Description.Render
import JobFile.Proofs.Layout.Spine

/-!
# Blocks are closed again

* `Draft.Keeps`              : a later draft with the same open blocks, whose text goes on where
  the earlier one stopped;
* `Script.run_aligned`       : the indentation follows the open blocks in every draft that any
  script leaves, also one that opens and closes blocks on its own;
* `Node.script_paired`       : what a node writes is paired;
* `Program.run_balanced`     : every call ends, well or with a refusal, in a draft that keeps the
  one before it; so no breach is met, in no program and in no description.
-/

namespace JobFile

/-- The same blocks are open as before, and the text goes on where it stopped. -/
structure Draft.Keeps (d e : Draft) : Prop where
  context : e.context = d.context
  indent : e.indent = d.indent
  text : ∃ more, e.text = d.text ++ more

theorem Draft.keeps_add (d : Draft) (items : List Item) : d.Keeps (d.add items) :=
  ⟨rfl, rfl, _, rfl⟩

/-! ## Every draft that is reached is aligned -/

/-- The draft that is left, if one is, has the property. -/
def Outcome.Leaves (P : Draft → Prop) : Outcome → Prop
  | .done d | .failed d _ => P d
  | .breached _ => True

namespace Outcome

variable {P : Draft → Prop}

theorem Leaves.andThen {o : Outcome} (h : o.Leaves P) {next : Draft → Outcome}
    (hn : ∀ d, P d → (next d).Leaves P) : (o.andThen next).Leaves P := by
  cases o with
  | done d => exact hn d h
  | failed d why => exact h
  | breached why => trivial

theorem leaves_ofBreach {x : Except Breach Draft} (h : ∀ d, x = .ok d → P d) :
    (ofBreach x).Leaves P := by
  cases x with
  | ok d => exact h d rfl
  | error why => trivial

theorem Leaves.closing {Q : Draft → Prop} {o : Outcome} (h : o.Leaves P) {keyword : String}
    (he : ∀ d e, P d → d.endBlock keyword = .ok e → Q e) : (o.closing keyword).Leaves Q := by
  cases o with
  | done d => exact leaves_ofBreach fun e hde => he d e h hde
  | failed d why =>
    cases hde : d.endBlock keyword with
    | ok e =>
      simp only [Outcome.closing, hde]
      exact he d e h hde
    | error breach =>
      simp only [Outcome.closing, hde]
      trivial
  | breached why => trivial

theorem Leaves.caughtIf {o : Outcome} (h : o.Leaves P) (caught : Bool) :
    (o.caughtIf caught).Leaves P := by
  cases o <;> cases caught <;> exact h

theorem leaves_of_ended {o : Outcome} {d : Draft} {refusal : Option Refusal} (h : o.Leaves P)
    (ho : o = .ended d refusal) : P d := by
  subst ho
  cases refusal <;> exact h

end Outcome

theorem Draft.line_aligned {d e : Draft} {text : String} (h : d.line text = .ok e) :
    e.Aligned := by
  unfold Draft.line at h
  split at h
  · rename_i hd
    cases h
    exact hd
  · cases h

theorem Draft.startBlock_aligned {d e : Draft} (hd : d.Aligned) {keyword : String}
    {name : Option String} (h : d.startBlock keyword name = .ok e) : e.Aligned := by
  rw [Draft.startBlock_eq_opened hd] at h
  cases h
  exact hd.opened keyword name

/-- What follows something that may fail is only reached if that goes well. -/
theorem ok_of_bind {ε α β : Type} {x : Except ε α} {next : α → Except ε β} {b : β}
    (h : x >>= next = .ok b) : ∃ a, x = .ok a ∧ next a = .ok b := by
  cases x with
  | error why => cases h
  | ok a => exact ⟨a, rfl, h⟩

theorem Draft.endBlock_aligned {d e : Draft} {keyword : String}
    (h : d.endBlock keyword = .ok e) : e.Aligned := by
  unfold Draft.endBlock at h
  split at h
  · cases h
  · obtain ⟨context, -, hline⟩ := ok_of_bind h
    exact Draft.line_aligned hline

mutual
theorem Action.run_aligned : ∀ (a : Action) (d : Draft), d.Aligned →
    (a.run d).Leaves Draft.Aligned
  | .line _, _, _ => Outcome.leaves_ofBreach fun _ h => Draft.line_aligned h
  | .raw _, _, hd => hd
  | .startBlock _ _, _, hd => Outcome.leaves_ofBreach fun _ h => Draft.startBlock_aligned hd h
  | .endBlock _, _, _ => Outcome.leaves_ofBreach fun _ h => Draft.endBlock_aligned h
  | .block keyword name body, d, hd => by
    have hs : (Outcome.ofBreach (d.startBlock keyword name)).Leaves Draft.Aligned :=
      Outcome.leaves_ofBreach fun _ h => Draft.startBlock_aligned hd h
    refine hs.andThen fun e he => ?_
    exact (Script.run_aligned body e he).closing fun _ _ _ h => Draft.endBlock_aligned h
  | .within stanza allowed, d, hd => by
    unfold Action.run
    split <;> exact hd
  | .lacking _, _, hd | .fail _, _, hd => hd
  | .step _ caught body, d, hd => (Script.run_aligned body d hd).caughtIf caught
/-- **The indentation follows the open blocks in every draft that a script leaves.** -/
theorem Script.run_aligned : ∀ (s : List Action) (d : Draft), d.Aligned →
    (Script.run s d).Leaves Draft.Aligned
  | [], _, hd => hd
  | a :: as, d, hd => (Action.run_aligned a d hd).andThen fun e he => Script.run_aligned as e he
end

/-! ## Every draft on the way is aligned -/

mutual
theorem Action.visits_aligned : ∀ (a : Action) (d : Draft), a.Paired → d.Aligned →
    ∀ v ∈ a.visits d, v.1.Paired ∧ v.2.Aligned
  | .block keyword name body, d, hp, hd, v, hv => by
    simp only [Action.visits, Draft.startBlock_eq_opened hd] at hv
    rcases List.mem_cons.1 hv with rfl | hv
    · exact ⟨hp, hd⟩
    · exact Script.visits_aligned body _ hp (hd.opened keyword name) v hv
  | .step label caught body, d, hp, hd, v, hv => by
    simp only [Action.visits] at hv
    rcases List.mem_cons.1 hv with rfl | hv
    · exact ⟨hp, hd⟩
    · exact Script.visits_aligned body d hp hd v hv
  | .line _, _, hp, hd, _, hv | .raw _, _, hp, hd, _, hv | .startBlock _ _, _, hp, hd, _, hv
  | .endBlock _, _, hp, hd, _, hv | .within _ _, _, hp, hd, _, hv | .lacking _, _, hp, hd, _, hv
  | .fail _, _, hp, hd, _, hv => by
    cases List.mem_singleton.1 hv
    exact ⟨hp, hd⟩
/-- Every action that a paired script comes to finds an aligned draft. -/
theorem Script.visits_aligned : ∀ (s : List Action) (d : Draft), Script.Paired s → d.Aligned →
    ∀ v ∈ Script.visits s d, v.1.Paired ∧ v.2.Aligned
  | [], _, _, _, _, hv => by cases hv
  | a :: as, d, hp, hd, v, hv => by
    have ha := Action.run_eq_onto a d hp.1 hd
    rcases List.mem_append.1 hv with hv | hv
    · exact Action.visits_aligned a d hp.1 hd v hv
    · rw [ha, Written.onto] at hv
      cases hr : (a.written d.context.current).refusal with
      | none =>
        rw [hr] at hv
        exact Script.visits_aligned as _ hp.2 (hd.add _) v hv
      | some why =>
        rw [hr] at hv
        cases hv
end

/-! ## What a description writes is paired -/

theorem Script.ofExcept_bind_paired {α : Type} {x : Except Refusal α}
    {next : α → Except Refusal Script}
    (h : ∀ a, Script.Paired (Script.ofExcept (next a))) :
    Script.Paired (Script.ofExcept (x >>= next)) := by
  cases x with
  | ok a => exact h a
  | error why => exact ⟨trivial, trivial⟩

theorem Node.plainScript_paired (registry : Registry) (driver : String) (n : Node) (k : Keyword) :
    Script.Paired (n.plainScript registry driver k) := by
  cases k with
  | scalar s => exact Script.ofExcept_bind_paired fun v => s.write_paired v
  | job | block s => exact trivial
  | textMap m => exact Script.ofExcept_bind_paired fun es => m.write_paired es
  | config => exact Script.ofExcept_bind_paired fun es => Config.write_paired driver es
  | header =>
    exact Script.ofExcept_bind_paired fun name =>
      Script.ofExcept_bind_paired fun values => Header.write_paired name values
  | package => exact Script.ofExcept_bind_paired fun id => registry.package_paired id
  | credentials c =>
    exact Script.ofExcept_bind_paired fun name =>
      Script.ofExcept_bind_paired fun paths => c.write_paired name paths

mutual
theorem Node.script_paired (registry : Registry) : ∀ (driver : String) (n : Node),
    Script.Paired (n.script registry driver)
  | driver, ⟨stanza, name, value, values, children, fields⟩ => by
    unfold Node.script
    simp only
    split
    · split
      · exact Job.write_paired _ (Node.scripts_paired registry driver children)
      · exact ⟨trivial, trivial⟩
    · rename_i s _
      split
      · exact s.write_paired _ _ (Node.scripts_paired registry _ children)
      · exact ⟨trivial, trivial⟩
    · exact Node.plainScript_paired registry driver _ _
    · exact ⟨trivial, trivial⟩
theorem Node.scripts_paired (registry : Registry) : ∀ (driver : String) (ns : List Node),
    Script.Paired (Node.scripts registry driver ns)
  | _, [] => trivial
  | driver, n :: ns =>
    (Node.script_paired registry driver n).append (Node.scripts_paired registry driver ns)
end

theorem Description.script_paired (registry : Registry) (d : Description) :
    Script.Paired (d.script registry) :=
  Job.write_paired d.job (Node.scripts_paired registry standardDriver d.stanzas)

/-! ## No breach -/

/-- A paired action ends in a draft that keeps the one before it. -/
theorem Action.run_keeps {a : Action} {d : Draft} (hp : a.Paired) (hd : d.Aligned) :
    ∃ e refusal, a.run d = .ended e refusal ∧ d.Keeps e :=
  ⟨_, _, Action.run_eq_onto a d hp hd, d.keeps_add _⟩

/-- A paired script ends in a draft that keeps the one before it. -/
theorem Script.run_keeps {s : Script} {d : Draft} (hp : Script.Paired s) (hd : d.Aligned) :
    ∃ e refusal, Script.run s d = .ended e refusal ∧ d.Keeps e :=
  ⟨_, _, Script.run_eq_onto s d hp hd, d.keeps_add _⟩

/-- The draft that keeps an empty one can be finished. -/
theorem Draft.finish_of_keeps {e : Draft} (h : Draft.Keeps {} e) : e.finish = .ok e.text := by
  simp [Draft.finish, h.context, Context.isRoot]

/-- A paired script meets no breach when a document is made of it. -/
theorem Script.document_ne_breached {s : Script} (hp : Script.Paired s) (why : Breach) :
    s.document ≠ .error (.breached why) := by
  obtain ⟨e, refusal, hr, hk⟩ := Script.run_keeps (d := {}) hp rfl
  unfold Script.document
  rw [hr]
  intro h
  cases refusal with
  | none =>
    have hd : e.finish.mapError Failure.breached = .error (.breached why) := h
    rw [Draft.finish_of_keeps hk] at hd
    cases hd
  | some why' => cases h

/-- **Every call keeps what it finds.**  From any aligned draft, and so from any that a script can
reach, each call of a program and each action inside it ends, well or with a refusal, with the same
blocks open as before it, the same indentation, and the text before it at the front of the text
after it.  So a program started on an empty draft leaves one that can be finished, and neither a
program nor a description meets a breach. -/
theorem Program.run_balanced (registry : Registry) (p : Program) (d : Draft) (hd : d.Aligned) :
    let s := Program.script registry p
    (∀ v ∈ Script.visits s d, ∃ e refusal, v.1.run v.2 = .ended e refusal ∧ v.2.Keeps e) ∧
      (∃ e refusal, Script.run s d = .ended e refusal ∧ d.Keeps e) ∧
      (∃ e refusal, Script.run s {} = .ended e refusal ∧ e.finish = .ok e.text) ∧
      (∀ why, s.document ≠ .error (.breached why)) ∧
      (∀ (t : Script) (e : Draft) (refusal : Option Refusal),
        Script.run t {} = .ended e refusal → e.Aligned) ∧
      ∀ (description : Description) (why : Breach),
        description.render registry ≠ .error (.breached why) := by
  intro s
  have hs : Script.Paired s := Program.paired registry p
  have hroot : Draft.Aligned {} := rfl
  refine ⟨fun v hv => ?_, Script.run_keeps hs hd, ?_, Script.document_ne_breached hs, ?_, ?_⟩
  · obtain ⟨hp, ha⟩ := Script.visits_aligned s d hs hd v hv
    exact Action.run_keeps hp ha
  · obtain ⟨e, refusal, hr, hk⟩ := Script.run_keeps hs hroot
    exact ⟨e, refusal, hr, Draft.finish_of_keeps hk⟩
  · intro t e refusal ht
    exact Outcome.leaves_of_ended (Script.run_aligned t {} hroot) ht
  · intro description
    exact Script.document_ne_breached (description.script_paired registry)

/-- Inside an open job, a group whose task holds back the failure of one stanza and ends with that of
another is left as it was found. -/
theorem Program.run_balanced_in_job :
    let d : Draft := ⟨"job \"j\" \x7b\n", 1, true, ⟨["job"]⟩⟩
    let p : Program :=
      [.stanza .group "g" Stanza.group.blank
        [.stanza .task "t" Stanza.task.blank
          [.caught [.stanza .artifact () Stanza.artifact.blank []],
            .stanza .template () Stanza.template.blank []]]]
    d.Aligned ∧ ∃ e refusal, Script.run (Program.script {} p) d = .ended e refusal ∧ d.Keeps e := by
  intro d p
  have hd : d.Aligned := rfl
  exact ⟨hd, (Program.run_balanced {} p d hd).2.1⟩

end JobFile
