import JobFile.Proofs.Layout.Program

/-!
# Drafts as trees in progress

* `Spine`            : the items of the innermost open block, and of the blocks around it;
* `Spine.draft`      : the draft that such a tree in progress is printed as;
* `Script.visits`    : the actions that a run comes to, each with the draft that it finds;
* `Script.moments`   : the same, with the items recorded so far in place of a draft;
* `Program.run_prints_items` : a run goes through the drafts of the recorded items, from its
  first call to its last.

The flag of a draft says whether its innermost list of items is empty.
-/

namespace JobFile

/-- An open block and what stands before it in the block around it. -/
structure Opening where
  before : List Item
  keyword : String
  name : Option String

/-- A tree of items in progress.  The innermost open block comes first. -/
structure Spine where
  items : List Item := []
  around : List Opening := []

namespace Spine

/-- The keyword of the innermost open block. -/
def current (sp : Spine) : String := (sp.around.map Opening.keyword).headD Context.root

/-- The tree with items added to its innermost block. -/
def add (sp : Spine) (items : List Item) : Spine := { sp with items := sp.items ++ items }

/-- The tree with a block opened. -/
def enter (sp : Spine) (keyword : String) (name : Option String) : Spine :=
  ⟨[], ⟨sp.items, keyword, name⟩ :: sp.around⟩

/-- The text up to the inside of the innermost open block. -/
def textAround : List Opening → String
  | [] => ""
  | o :: os =>
    textAround os ++ Item.printAll os.length true o.before ++ (Item.separator o.before.isEmpty
      ++ (indentation os.length ++ headerLine o.keyword o.name "\x7b" ++ "\n"))

/-- The draft that a tree in progress is printed as. -/
def draft (sp : Spine) : Draft where
  text := textAround sp.around ++ Item.printAll sp.around.length true sp.items
  indent := sp.around.length
  first := sp.items.isEmpty
  context := ⟨sp.around.map Opening.keyword⟩

theorem draft_aligned (sp : Spine) : sp.draft.Aligned := by
  simp [Draft.Aligned, draft, Context.depth]

@[simp] theorem draft_current (sp : Spine) : sp.draft.context.current = sp.current := rfl

theorem draft_add (sp : Spine) (items : List Item) :
    sp.draft.add items = (sp.add items).draft := by
  have hf : (sp.items.isEmpty && items.isEmpty) = (sp.items ++ items).isEmpty := by
    cases sp.items <;> simp
  simp only [draft, add, Draft.add, Item.printAll_append, String.append_assoc, Bool.true_and, hf]

theorem draft_opened (sp : Spine) (keyword : String) (name : Option String) :
    sp.draft.opened keyword name = (sp.enter keyword name).draft := by
  simp [draft, enter, Draft.opened, Context.enter, textAround, Item.printAll]

/-- What writing onto the draft of a tree does to the tree. -/
theorem onto_draft (sp : Spine) (w : Written) :
    w.onto sp.draft = .ended (sp.add w.items).draft w.refusal := by
  rw [Written.onto, draft_add]

end Spine

/-! ## Moments of a run -/

mutual
/-- The actions that an action comes to, itself first, each with the draft that it finds. -/
def Action.visits : Action → Draft → List (Action × Draft)
  | .block keyword name body, d =>
    (.block keyword name body, d) :: match d.startBlock keyword name with
      | .ok e => Script.visits body e
      | .error _ => []
  | .step label caught body, d => (.step label caught body, d) :: Script.visits body d
  | a, d => [(a, d)]
/-- The actions that a script comes to, up to the first failure. -/
def Script.visits : List Action → Draft → List (Action × Draft)
  | [], _ => []
  | a :: as, d =>
    a.visits d ++ match a.run d with
      | .done e => Script.visits as e
      | _ => []
end

theorem Script.mem_visits_cons {a : Action} {s : Script} {d : Draft} {v : Action × Draft} :
    v ∈ Script.visits (a :: s) d ↔
      v ∈ a.visits d ∨ ∃ e, a.run d = .done e ∧ v ∈ Script.visits s e := by
  rw [Script.visits, List.mem_append]
  cases a.run d <;> simp

theorem Script.visits_append (s t : Script) (d : Draft) :
    Script.visits (s ++ t) d = Script.visits s d ++ match Script.run s d with
      | .done e => Script.visits t e
      | _ => [] := by
  induction s generalizing d with
  | nil => rfl
  | cons a s ih =>
    rw [List.cons_append, Script.visits, Script.visits, Script.run, List.append_assoc]
    cases a.run d with
    | done e => exact congrArg (a.visits d ++ ·) (ih e)
    | failed e why => rfl
    | breached why => rfl

mutual
/-- The actions that an action comes to, itself first, each with the tree recorded before it. -/
def Action.moments : Action → Spine → List (Action × Spine)
  | .block keyword name body, sp =>
    (.block keyword name body, sp) :: Script.moments body (sp.enter keyword name)
  | .step label caught body, sp => (.step label caught body, sp) :: Script.moments body sp
  | a, sp => [(a, sp)]
/-- The actions that a script comes to, up to the first refusal. -/
def Script.moments : List Action → Spine → List (Action × Spine)
  | [], _ => []
  | a :: as, sp =>
    let w := a.written sp.current
    a.moments sp ++ match w.refusal with
      | none => Script.moments as (sp.add w.items)
      | some _ => []
end

/-- A moment of a run, with its tree printed. -/
def Spine.show (m : Action × Spine) : Action × Draft := (m.1, m.2.draft)

mutual
theorem Action.visits_draft : ∀ (a : Action) (sp : Spine), a.Paired →
    a.visits sp.draft = (a.moments sp).map Spine.show
  | .block keyword name body, sp, hp => by
    have ih := Script.visits_draft body (sp.enter keyword name) hp
    simp only [Action.visits, Draft.startBlock_eq_opened sp.draft_aligned, Spine.draft_opened, ih,
      Action.moments, List.map_cons, Spine.show]
  | .step label caught body, sp, hp => by
    have ih := Script.visits_draft body sp hp
    simp only [Action.visits, ih, Action.moments, List.map_cons, Spine.show]
  | .line _, _, _ | .raw _, _, _ | .startBlock _ _, _, _ | .endBlock _, _, _ | .within _ _, _, _
  | .lacking _, _, _ | .fail _, _, _ => rfl
/-- **A paired script goes through the printed forms of the trees that it records.** -/
theorem Script.visits_draft : ∀ (s : List Action) (sp : Spine), Script.Paired s →
    Script.visits s sp.draft = (Script.moments s sp).map Spine.show
  | [], _, _ => rfl
  | a :: as, sp, hp => by
    have ha := Action.visits_draft a sp hp.1
    have hr := Action.run_eq_onto a sp.draft hp.1 sp.draft_aligned
    rw [Spine.onto_draft, Spine.draft_current] at hr
    simp only [Script.visits, ha, hr, Script.moments, List.map_append]
    congr 1
    cases (a.written sp.current).refusal with
    | none => exact Script.visits_draft as _ hp.2
    | some why => rfl
end

/-- **What a program leaves is the print of the items it has written.**  It ends well or with the
refusal that ends these, from an empty draft or with any blocks open and anything before it.  The
same holds at every action on its way: the draft found there is the print of what has been recorded
so far, and its flag says whether the innermost block is still empty. -/
theorem Program.run_prints_items (registry : Registry) (p : Program) :
    let s := Program.script registry p
    let w := Script.written Context.root s
    Script.run s {} =
        .ended { text := Item.printAll 0 true w.items, first := w.items.isEmpty } w.refusal ∧
      (∀ sp : Spine, Script.run s sp.draft =
        .ended (sp.add (Script.written sp.current s).items).draft
          (Script.written sp.current s).refusal) ∧
      ∀ sp : Spine, Script.visits s sp.draft = (Script.moments s sp).map Spine.show := by
  intro s w
  have hs : Script.Paired s := Program.paired registry p
  have hrun : ∀ sp : Spine, Script.run s sp.draft =
      .ended (sp.add (Script.written sp.current s).items).draft
        (Script.written sp.current s).refusal := by
    intro sp
    rw [Script.run_eq_onto s sp.draft hs sp.draft_aligned, Spine.onto_draft, Spine.draft_current]
  refine ⟨?_, hrun, fun sp => Script.visits_draft s sp hs⟩
  have hroot := hrun {}
  simpa [Spine.draft, Spine.add, Spine.textAround, Spine.current, Item.printAll, w] using hroot

end JobFile
