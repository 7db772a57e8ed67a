import JobFile.Proofs.Layout.Item

/-!
# What scripts write

* `Written`              : items, and the refusal that ends them if there is one;
* `Action.written`, `Script.written` : what a script writes, as far as it follows from the keyword
  of the block in which it stands; neither the text nor any flag of a draft is read;
* `Script.Paired`        : no block of a script is opened or closed on its own;
* `Script.run_eq_onto`   : carrying out a paired script adds the items it writes, and nothing else.

A script that fails inside blocks has written these blocks with what came before the failure.
-/

namespace JobFile

/-- The items that a script writes, and the refusal that ends it. -/
structure Written where
  items : List Item
  refusal : Option Refusal

namespace Written

/-- Nothing is written, and nothing is refused. -/
def nothing : Written := ⟨[], none⟩

/-- Nothing is written before the refusal. -/
def refused (why : Refusal) : Written := ⟨[], some why⟩

/-- What comes after a refusal is not written. -/
def andThen (w next : Written) : Written :=
  match w.refusal with
  | none => ⟨w.items ++ next.items, next.refusal⟩
  | some why => ⟨w.items, some why⟩

/-- The same inside a block. -/
def enclosed (keyword : String) (name : Option String) (w : Written) : Written :=
  ⟨[.block keyword name w.items], w.refusal⟩

/-- The same, with the refusal held back if that is asked for. -/
def caughtIf (caught : Bool) (w : Written) : Written :=
  ⟨w.items, if caught then none else w.refusal⟩

@[simp] theorem andThen_nothing (w : Written) : w.andThen nothing = w := by
  obtain ⟨items, refusal⟩ := w
  cases refusal <;> simp [andThen, nothing]

theorem andThen_assoc (u v w : Written) : (u.andThen v).andThen w = u.andThen (v.andThen w) := by
  obtain ⟨items, refusal⟩ := u
  obtain ⟨items', refusal'⟩ := v
  cases refusal <;> cases refusal' <;> simp [andThen]

end Written

mutual
/-- What an action writes inside a block of the given keyword. -/
def Action.written (parent : String) : Action → Written
  | .line text => ⟨[.line text], none⟩
  | .raw text => ⟨[.raw text], none⟩
  | .startBlock _ _ | .endBlock _ => .nothing
  | .block keyword name body => (Script.written keyword body).enclosed keyword name
  | .within stanza allowed =>
    if parent ∈ allowed then .nothing else .refused (.misplaced stanza allowed)
  | .lacking key => .refused (.missingValue parent key)
  | .fail why => .refused why
  | .step _ caught body => (Script.written parent body).caughtIf caught
/-- What a script writes inside a block of the given keyword. -/
def Script.written (parent : String) : List Action → Written
  | [] => .nothing
  | a :: as => (a.written parent).andThen (Script.written parent as)
end

theorem Script.written_append (parent : String) (s t : Script) :
    Script.written parent (s ++ t) =
      (Script.written parent s).andThen (Script.written parent t) := by
  induction s with
  | nil => rfl
  | cons a s ih => simp only [List.cons_append, Script.written, ih, Written.andThen_assoc]

theorem Script.written_singleton (parent : String) (a : Action) :
    Script.written parent [a] = a.written parent := by
  simp only [Script.written, Written.andThen_nothing]

theorem Script.written_block (parent keyword : String) (name : Option String) (body : Script) :
    Script.written parent [.block keyword name body] =
      (Script.written keyword body).enclosed keyword name := by
  rw [Script.written_singleton, Action.written]

/-! ## Paired scripts -/

mutual
/-- No block is opened or closed on its own inside the action. -/
def Action.Paired : Action → Prop
  | .startBlock _ _ | .endBlock _ => False
  | .block _ _ body | .step _ _ body => Script.Paired body
  | _ => True
/-- No block is opened or closed on its own inside the script. -/
def Script.Paired : List Action → Prop
  | [] => True
  | a :: as => a.Paired ∧ Script.Paired as
end

theorem Script.paired_append {s t : Script} :
    Script.Paired (s ++ t) ↔ Script.Paired s ∧ Script.Paired t := by
  induction s with
  | nil => simp [Script.Paired]
  | cons a s ih => simp only [List.cons_append, Script.Paired, ih, and_assoc]

theorem Script.Paired.append {s t : Script} (hs : Script.Paired s) (ht : Script.Paired t) :
    Script.Paired (s ++ t) :=
  Script.paired_append.2 ⟨hs, ht⟩

theorem Script.paired_flatten {ss : List Script} (h : ∀ s ∈ ss, Script.Paired s) :
    Script.Paired ss.flatten := by
  induction ss with
  | nil => exact trivial
  | cons s ss ih =>
    rw [List.flatten_cons]
    exact (h s List.mem_cons_self).append (ih fun t ht => h t (List.mem_cons_of_mem _ ht))

/-! ## Carrying out a paired script -/

/-- How a script ends, given its draft and the refusal if there is one. -/
def Outcome.ended (d : Draft) : Option Refusal → Outcome
  | none => .done d
  | some why => .failed d why

/-- How it ends when a script writes the given items onto a draft. -/
def Written.onto (w : Written) (d : Draft) : Outcome := .ended (d.add w.items) w.refusal

@[simp] theorem Written.nothing_onto (d : Draft) : Written.nothing.onto d = .done d := by
  simp [onto, nothing, Outcome.ended]

@[simp] theorem Written.refused_onto (why : Refusal) (d : Draft) :
    (Written.refused why).onto d = .failed d why := by
  simp [onto, refused, Outcome.ended]

theorem Written.onto_eq_failed_iff {w : Written} {d e : Draft} {why : Refusal} :
    w.onto d = .failed e why ↔ d.add w.items = e ∧ w.refusal = some why := by
  obtain ⟨items, refusal⟩ := w
  cases refusal <;> simp [onto, Outcome.ended]

/-- Writing goes on where it stopped. -/
theorem Written.onto_andThen (w : Written) (d : Draft) (next : Written) (k : Draft → Outcome)
    (hk : k (d.add w.items) = next.onto (d.add w.items)) :
    (w.onto d).andThen k = (w.andThen next).onto d := by
  obtain ⟨items, refusal⟩ := w
  cases refusal with
  | none =>
    show k (d.add items) = _
    rw [hk]
    simp [onto, Written.andThen]
  | some why => rfl

/-- A block is closed after its body, whether that fails or not. -/
theorem Written.onto_closing {d : Draft} (h : d.Aligned) (keyword : String) (name : Option String)
    (w : Written) :
    (w.onto (d.opened keyword name)).closing keyword = (w.enclosed keyword name).onto d := by
  obtain ⟨items, refusal⟩ := w
  have hc := Draft.endBlock_opened h keyword name items
  cases refusal <;>
    simp [onto, Outcome.ended, Outcome.closing, hc, enclosed, Outcome.ofBreach]

@[simp] theorem Outcome.caughtIf_false (o : Outcome) : o.caughtIf false = o := by
  cases o <;> rfl

theorem Written.onto_caughtIf (w : Written) (d : Draft) (caught : Bool) :
    (w.onto d).caughtIf caught = (w.caughtIf caught).onto d := by
  obtain ⟨items, refusal⟩ := w
  cases refusal <;> cases caught <;> rfl

mutual
/-- **Carrying out a paired action adds the items that it writes**, and ends with its refusal. -/
theorem Action.run_eq_onto : ∀ (a : Action) (d : Draft), a.Paired → d.Aligned →
    a.run d = (a.written d.context.current).onto d
  | .line text, d, _, hd => by
    simp only [Action.run, Draft.line_eq_add hd]
    rfl
  | .raw text, d, _, _ => by
    simp only [Action.run, Draft.raw_eq_add]
    rfl
  | .startBlock _ _, _, hp, _ => hp.elim
  | .endBlock _, _, hp, _ => hp.elim
  | .block keyword name body, d, hp, hd => by
    have ih := Script.run_eq_onto body (d.opened keyword name) hp (hd.opened keyword name)
    simp only [Action.run, Draft.startBlock_eq_opened hd, Outcome.ofBreach, Outcome.andThen, ih,
      Draft.opened_context, Context.current_enter, Action.written]
    exact Written.onto_closing hd keyword name _
  | .within stanza allowed, d, _, _ => by
    by_cases h : d.context.current ∈ allowed <;>
      simp [Action.run, Context.allow, Action.written, h]
  | .lacking key, d, _, _ => by
    simp [Action.run, Action.written]
  | .fail why, d, _, _ => by
    simp [Action.run, Action.written]
  | .step _ caught body, d, hp, hd => by
    have ih := Script.run_eq_onto body d hp hd
    simp only [Action.run, ih, Action.written]
    exact Written.onto_caughtIf _ d caught
/-- **Carrying out a paired script adds the items that it writes**, and ends with its refusal. -/
theorem Script.run_eq_onto : ∀ (s : List Action) (d : Draft), Script.Paired s → d.Aligned →
    Script.run s d = (Script.written d.context.current s).onto d
  | [], d, _, _ => by
    simp [Script.run, Script.written]
  | a :: as, d, hp, hd => by
    have ha := Action.run_eq_onto a d hp.1 hd
    simp only [Script.run, Script.written, ha]
    apply Written.onto_andThen
    exact Script.run_eq_onto as _ hp.2 (hd.add _)
end

end JobFile
