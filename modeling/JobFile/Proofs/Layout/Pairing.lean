import JobFile.Proofs.Layout.Balance
import JobFile.Proofs.Layout.Brackets
import Mathlib.Data.List.Forall2

/-!
# Which scripts pair their blocks

* `Course`               : the brackets that a script comes to, and whether it fails;
* `Script.course`        : read off the script alone, as if nothing could go wrong;
* `Script.spots`         : the actions on the way, each with the brackets before it;
* `Script.run_frame`     : a run follows the brackets of its course;
* `Script.visits_spots`  : and so it does at every action that it comes to.

Whether a block is closed by the action that opens it, by another one, or by one inside it, makes no
difference: only the word of brackets counts.
-/

namespace JobFile

/-! ## The brackets of a script -/

/-- The brackets that a script comes to, and whether it fails behind them. -/
structure Course where
  brackets : List Bracket
  fails : Bool

namespace Course

/-- Nothing is opened or closed. -/
def still : Course := ⟨[], false⟩

/-- What follows a failure is not come to. -/
def andThen (c next : Course) : Course :=
  if c.fails then c else ⟨c.brackets ++ next.brackets, next.fails⟩

/-- The same inside a block, which is closed after a failure too. -/
def enclosed (keyword : String) (c : Course) : Course :=
  ⟨.opening keyword :: (c.brackets ++ [.closing keyword]), c.fails⟩

/-- The same, with the failure held back if that is asked for. -/
def caughtIf (caught : Bool) (c : Course) : Course := ⟨c.brackets, !caught && c.fails⟩

end Course

mutual
/-- The brackets of an action that asks for no place. -/
def Action.course : Action → Course
  | .line _ | .raw _ | .within _ _ => .still
  | .startBlock keyword _ => ⟨[.opening keyword], false⟩
  | .endBlock keyword => ⟨[.closing keyword], false⟩
  | .block keyword _ body => (Script.course body).enclosed keyword
  | .lacking _ | .fail _ => ⟨[], true⟩
  | .step _ caught body => (Script.course body).caughtIf caught
/-- The brackets of a script that asks for no place. -/
def Script.course : List Action → Course
  | [] => .still
  | a :: as => a.course.andThen (Script.course as)
end

mutual
/-- Whether the action fails does not depend on the block in which it stands. -/
def Action.Placeless : Action → Prop
  | .within _ _ => False
  | .block _ _ body | .step _ _ body => Script.Placeless body
  | _ => True
/-- Whether the script fails does not depend on the block in which it stands. -/
def Script.Placeless : List Action → Prop
  | [] => True
  | a :: as => a.Placeless ∧ Script.Placeless as
end

mutual
/-- The actions that an action comes to, itself first, each with the brackets before it. -/
def Action.spots (before : List Bracket) : Action → List (Action × List Bracket)
  | .block keyword name body =>
    (.block keyword name body, before) :: Script.spots (before ++ [.opening keyword]) body
  | .step label caught body => (.step label caught body, before) :: Script.spots before body
  | a => [(a, before)]
/-- The actions that a script comes to, up to the first failure. -/
def Script.spots (before : List Bracket) : List Action → List (Action × List Bracket)
  | [] => []
  | a :: as =>
    a.spots before ++
      if a.course.fails then [] else Script.spots (before ++ a.course.brackets) as
end

theorem Script.placeless_append {s t : Script} :
    Script.Placeless (s ++ t) ↔ Script.Placeless s ∧ Script.Placeless t := by
  induction s with
  | nil => simp [Script.Placeless]
  | cons a s ih => simp only [List.cons_append, Script.Placeless, ih, and_assoc]

/-! ## Runs follow their brackets -/

namespace Outcome

/-- The blocks left open, and whether a failure ended the run. -/
def frame : Outcome → Except Breach (List String × Bool)
  | .done d => .ok (d.context.opened, false)
  | .failed d _ => .ok (d.context.opened, true)
  | .breached why => .error why

/-- The document, if every block that was opened has been closed. -/
def finish : Outcome → Except Breach String
  | .done d | .failed d _ => d.finish
  | .breached why => .error why

theorem caughtIf_frame (o : Outcome) (caught : Bool) :
    (o.caughtIf caught).frame = o.frame.map fun f => (f.1, !caught && f.2) := by
  cases o <;> cases caught <;> rfl

end Outcome

/-- The blocks left open by a course that starts with the given ones open. -/
def Course.frame (opened : List String) (c : Course) : Except Breach (List String × Bool) :=
  (Bracket.follow opened c.brackets).map fun opened => (opened, c.fails)

theorem Course.frame_andThen (opened : List String) (c next : Course) :
    (c.andThen next).frame opened =
      c.frame opened >>= fun f => if f.2 then .ok f else next.frame f.1 := by
  obtain ⟨brackets, fails⟩ := c
  cases hfollow : Bracket.follow opened brackets <;> cases fails <;>
    simp [andThen, frame, Bracket.follow_append, hfollow, Except.map, bind, Except.bind]

theorem Course.frame_enclosed (opened : List String) (c : Course) (keyword : String) :
    (c.enclosed keyword).frame opened =
      c.frame (keyword :: opened) >>= fun f =>
        (Bracket.after f.1 (.closing keyword)).map fun opened => (opened, f.2) := by
  have hfollow : Bracket.follow opened (c.enclosed keyword).brackets =
      Bracket.follow (keyword :: opened) c.brackets >>= fun opened =>
        Bracket.follow opened [.closing keyword] := by
    rw [← Bracket.follow_append]
    rfl
  simp only [frame, hfollow, Bracket.follow_singleton]
  cases Bracket.follow (keyword :: opened) c.brackets <;> rfl

namespace Draft

/-- Closing a block goes by the open blocks alone: where none is open the indentation runs out, and
so the context is not asked. -/
theorem endBlock_opened_eq {d : Draft} (hd : d.Aligned) (keyword : String) :
    (d.endBlock keyword).map (fun e => e.context.opened) =
      Bracket.after d.context.opened (.closing keyword) := by
  obtain ⟨text, indent, first, ⟨opened⟩⟩ := d
  have hindent : indent = opened.length := hd
  subst hindent
  cases opened with
  | nil => rfl
  | cons innermost around =>
    by_cases h : innermost = keyword <;>
      simp [endBlock, Context.leave, Bracket.after, line, Context.depth, h, bind, Except.bind,
        Except.map]

end Draft

theorem Outcome.closing_frame {o : Outcome} (h : o.Leaves Draft.Aligned) (keyword : String) :
    (o.closing keyword).frame =
      o.frame >>= fun f =>
        (Bracket.after f.1 (.closing keyword)).map fun opened => (opened, f.2) := by
  cases o with
  | breached why => rfl
  | done d | failed d why =>
    have hend := Draft.endBlock_opened_eq (d := d) h keyword
    show Outcome.frame _ = (Bracket.after d.context.opened (.closing keyword)).map _
    rw [← hend]
    simp only [closing]
    cases d.endBlock keyword <;> rfl

mutual
theorem Action.run_frame : ∀ (a : Action) (d : Draft), a.Placeless → d.Aligned →
    (a.run d).frame = a.course.frame d.context.opened
  | .line text, d, _, hd => by
    rw [Action.run, Draft.line_eq_add hd]
    rfl
  | .raw _, _, _, _ | .lacking _, _, _, _ | .fail _, _, _, _ => rfl
  | .startBlock keyword name, d, _, hd => by
    rw [Action.run, Draft.startBlock_eq_opened hd]
    rfl
  | .endBlock keyword, d, _, hd => by
    have hend := Draft.endBlock_opened_eq hd keyword
    rw [Action.run, Action.course, Course.frame, Bracket.follow_singleton, ← hend]
    cases d.endBlock keyword <;> rfl
  | .block keyword name body, d, hp, hd => by
    have hopened := hd.opened keyword name
    have ih := Script.run_frame body (d.opened keyword name) hp hopened
    rw [Action.course, Course.frame_enclosed]
    simp only [Action.run, Draft.startBlock_eq_opened hd, Outcome.ofBreach, Outcome.andThen]
    rw [Outcome.closing_frame (Script.run_aligned body _ hopened), ih]
    rfl
  | .within _ _, _, hp, _ => hp.elim
  | .step _ caught body, d, hp, hd => by
    rw [Action.run, Outcome.caughtIf_frame, Script.run_frame body d hp hd, Action.course]
    unfold Course.frame Course.caughtIf
    cases Bracket.follow d.context.opened (Script.course body).brackets <;> rfl
/-- **A run follows the brackets of its course**: it leaves open what they leave open, and meets
the breach that they meet. -/
theorem Script.run_frame : ∀ (s : List Action) (d : Draft), Script.Placeless s → d.Aligned →
    (Script.run s d).frame = (Script.course s).frame d.context.opened
  | [], _, _, _ => rfl
  | a :: as, d, hp, hd => by
    have ha := Action.run_frame a d hp.1 hd
    have haligned := Action.run_aligned a d hd
    rw [Script.run, Script.course, Course.frame_andThen, ← ha]
    cases hrun : a.run d with
    | done e =>
      rw [hrun] at haligned
      exact Script.run_frame as e hp.2 haligned
    | failed e why => rfl
    | breached why => rfl
end

/-! ## Every action on the way -/

/-- A run comes to an action where the brackets before it say, in a draft whose indentation follows
the blocks that they leave open. -/
structure Finds (v : Action × Draft) (spot : Action × List Bracket) : Prop where
  action : v.1 = spot.1
  aligned : v.2.Aligned
  opened : Bracket.follow [] spot.2 = .ok v.2.context.opened

/-- A run comes to the first of the given spots, and to all of them unless it meets a breach. -/
def Outcome.Reaches (o : Outcome) (visits : List (Action × Draft))
    (spots : List (Action × List Bracket)) : Prop :=
  ∃ reached missed, spots = reached ++ missed ∧ List.Forall₂ Finds visits reached ∧
    (o.frame.isOk → missed = [])

namespace Outcome

variable {o o' : Outcome} {vs vs' : List (Action × Draft)}
  {spots spots' : List (Action × List Bracket)}

theorem Reaches.cons (h : o.Reaches vs spots) {v : Action × Draft}
    {spot : Action × List Bracket} (hv : Finds v spot) : o.Reaches (v :: vs) (spot :: spots) := by
  obtain ⟨reached, missed, rfl, hreached, hmissed⟩ := h
  exact ⟨spot :: reached, missed, rfl, .cons hv hreached, hmissed⟩

/-- What ends well only if this does comes to the same spots. -/
theorem Reaches.mono (h : o.Reaches vs spots) (hok : o'.frame.isOk → o.frame.isOk) :
    o'.Reaches vs spots := by
  obtain ⟨reached, missed, rfl, hreached, hmissed⟩ := h
  exact ⟨reached, missed, rfl, hreached, fun ho => hmissed (hok ho)⟩

theorem Reaches.append (h : o.Reaches vs spots) (ho : o.frame.isOk)
    (h' : o'.Reaches vs' spots') : o'.Reaches (vs ++ vs') (spots ++ spots') := by
  obtain ⟨reached, missed, rfl, hreached, hmissed⟩ := h
  obtain ⟨reached', missed', rfl, hreached', hmissed'⟩ := h'
  cases hmissed ho
  exact ⟨reached ++ reached', missed', by simp, List.rel_append hreached hreached', hmissed'⟩

/-- What comes after a breach is missed. -/
theorem Reaches.append_missed (h : o.Reaches vs spots) (ho : ¬o.frame.isOk)
    (later : List (Action × List Bracket)) : o.Reaches vs (spots ++ later) := by
  obtain ⟨reached, missed, rfl, hreached, -⟩ := h
  exact ⟨reached, missed ++ later, List.append_assoc _ _ _, hreached, fun h => absurd h ho⟩

/-- The visits find the spots of the same numbers. -/
theorem Reaches.getElem? (h : o.Reaches vs spots) {i : Nat} {v : Action × Draft}
    (hv : vs[i]? = some v) : ∃ spot, spots[i]? = some spot ∧ Finds v spot := by
  obtain ⟨reached, missed, rfl, hreached, -⟩ := h
  obtain ⟨hi, rfl⟩ := List.getElem?_eq_some_iff.1 hv
  have hi' : i < reached.length := hreached.length_eq ▸ hi
  refine ⟨reached[i], ?_, hreached.get hi hi'⟩
  rw [List.getElem?_append_left hi', List.getElem?_eq_getElem hi']

end Outcome

theorem Bracket.follow_of_frame {before : List Bracket} {opened keywords : List String}
    {fails : Bool} {c : Course} (h : Bracket.follow [] before = .ok opened)
    (hframe : c.frame opened = .ok (keywords, fails)) :
    Bracket.follow [] (before ++ c.brackets) = .ok keywords ∧ c.fails = fails := by
  rw [Bracket.follow_append_of_ok h]
  unfold Course.frame at hframe
  cases hfollow : Bracket.follow opened c.brackets with
  | error why =>
    rw [hfollow] at hframe
    cases hframe
  | ok keywords =>
    rw [hfollow] at hframe
    cases hframe
    exact ⟨rfl, rfl⟩

mutual
theorem Action.visits_spots : ∀ (a : Action) (d : Draft) (before : List Bracket), a.Placeless →
    d.Aligned → Bracket.follow [] before = .ok d.context.opened →
    (a.run d).Reaches (a.visits d) (a.spots before)
  | .block keyword name body, d, before, hp, hd, hbefore => by
    have hopened : Bracket.follow [] (before ++ [.opening keyword]) =
        .ok (d.opened keyword name).context.opened := by
      rw [Bracket.follow_append_of_ok hbefore]
      rfl
    have ih := Script.visits_spots body (d.opened keyword name) _ hp (hd.opened keyword name)
      hopened
    simp only [Action.visits, Action.run, Draft.startBlock_eq_opened hd, Outcome.ofBreach,
      Outcome.andThen, Action.spots]
    refine (ih.mono fun ho => ?_).cons ⟨rfl, hd, hbefore⟩
    cases hrun : Script.run body (d.opened keyword name) with
    | breached why =>
      rw [hrun] at ho
      exact ho
    | done e | failed e why => rfl
  | .step label caught body, d, before, hp, hd, hbefore => by
    have ih := Script.visits_spots body d before hp hd hbefore
    simp only [Action.visits, Action.run, Action.spots]
    refine (ih.mono fun ho => ?_).cons ⟨rfl, hd, hbefore⟩
    rw [Outcome.caughtIf_frame] at ho
    cases hframe : (Script.run body d).frame with
    | error why =>
      rw [hframe] at ho
      exact ho
    | ok f => rfl
  | .line _, _, _, _, hd, hbefore | .raw _, _, _, _, hd, hbefore
  | .startBlock _ _, _, _, _, hd, hbefore | .endBlock _, _, _, _, hd, hbefore
  | .lacking _, _, _, _, hd, hbefore | .fail _, _, _, _, hd, hbefore =>
    ⟨[_], [], rfl, .cons ⟨rfl, hd, hbefore⟩ .nil, fun _ => rfl⟩
  | .within _ _, _, _, hp, _, _ => hp.elim
/-- **A run comes to the actions of its script in order**, each where the brackets before it say,
until it meets a breach. -/
theorem Script.visits_spots : ∀ (s : List Action) (d : Draft) (before : List Bracket),
    Script.Placeless s → d.Aligned → Bracket.follow [] before = .ok d.context.opened →
    (Script.run s d).Reaches (Script.visits s d) (Script.spots before s)
  | [], _, _, _, _, _ => ⟨[], [], rfl, .nil, fun _ => rfl⟩
  | a :: as, d, before, hp, hd, hbefore => by
    have ha := Action.visits_spots a d before hp.1 hd hbefore
    have hframe := Action.run_frame a d hp.1 hd
    have haligned := Action.run_aligned a d hd
    rw [Script.visits, Script.run, Script.spots]
    cases hrun : a.run d with
    | breached why =>
      rw [hrun] at ha
      rw [List.append_nil]
      exact ha.append_missed nofun _
    | failed e why =>
      rw [hrun] at ha hframe
      rw [if_pos (Bracket.follow_of_frame hbefore hframe.symm).2]
      rw [List.append_nil, List.append_nil]
      exact ha
    | done e =>
      rw [hrun] at ha hframe haligned
      obtain ⟨hafter, hfails⟩ := Bracket.follow_of_frame hbefore hframe.symm
      rw [if_neg (by simp [hfails])]
      exact ha.append rfl (Script.visits_spots as e _ hp.2 haligned hafter)
end

end JobFile
