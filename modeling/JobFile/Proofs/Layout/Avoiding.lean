import JobFile.Proofs.Layout.Checks
import JobFile.Proofs.Layout.Pairing

/-!
# Scripts that avoid a keyword

* `Script.visits_find_aligned` : whatever a script does, each of its actions finds an aligned draft;
* `Action.Avoids`      : no block of the keyword is opened in which something asks for its place;
* `Draft.OpensAtMost`  : how many blocks of the keyword are open;
* `Script.run_open`    : a script that avoids the keyword leaves no more of them open than it has
  found;
* `Script.visits_open` : nor are there more when one of its actions asks for its place.

Such a script may still write blocks of the keyword, like those of maps whose keys are chosen
freely.  But it closes them before anything asks in which block it stands.
-/

namespace JobFile

/-! ## Every action finds an aligned draft -/

mutual
theorem Action.visits_find_aligned : ∀ (a : Action) (d : Draft), d.Aligned →
    ∀ v ∈ a.visits d, v.2.Aligned
  | .block keyword name body, d, hd, v, hv => by
    rw [Action.visits, Draft.startBlock_eq_opened hd] at hv
    rcases List.mem_cons.1 hv with rfl | hv
    · exact hd
    · exact Script.visits_find_aligned body _ (hd.opened keyword name) v hv
  | .step label caught body, d, hd, v, hv => by
    rw [Action.visits] at hv
    rcases List.mem_cons.1 hv with rfl | hv
    · exact hd
    · exact Script.visits_find_aligned body d hd v hv
  | .line _, _, hd, v, hv | .raw _, _, hd, v, hv | .startBlock _ _, _, hd, v, hv
  | .endBlock _, _, hd, v, hv | .within _ _, _, hd, v, hv | .lacking _, _, hd, v, hv
  | .fail _, _, hd, v, hv => by
    cases List.mem_singleton.1 hv
    exact hd
/-- Whatever a script does, each of its actions finds an aligned draft. -/
theorem Script.visits_find_aligned : ∀ (s : List Action) (d : Draft), d.Aligned →
    ∀ v ∈ Script.visits s d, v.2.Aligned
  | [], _, _, _, hv => by cases hv
  | a :: as, d, hd, v, hv => by
    rcases Script.mem_visits_cons.1 hv with hv | ⟨e, hrun, hv⟩
    · exact Action.visits_find_aligned a d hd v hv
    · have haligned := Action.run_aligned a d hd
      rw [hrun] at haligned
      exact Script.visits_find_aligned as e haligned v hv
end

/-! ## Scripts that avoid a keyword -/

variable {keyword : String}

mutual
/-- Blocks of the keyword are not opened inside the action, unless they are closed by the action
that opens them and nothing in them asks for its place. -/
def Action.Avoids (keyword : String) : Action → Prop
  | .startBlock k _ => k ≠ keyword
  | .block k _ body => Script.Avoids keyword body ∧ (k = keyword → Script.Placeless body)
  | .step _ _ body => Script.Avoids keyword body
  | _ => True
/-- The same for every action of a script. -/
def Script.Avoids (keyword : String) : List Action → Prop
  | [] => True
  | a :: as => a.Avoids keyword ∧ Script.Avoids keyword as
end

theorem Script.avoids_append {s t : Script} :
    Script.Avoids keyword (s ++ t) ↔ Script.Avoids keyword s ∧ Script.Avoids keyword t := by
  induction s with
  | nil => simp [Script.Avoids]
  | cons a s ih => simp only [List.cons_append, Script.Avoids, ih, and_assoc]

theorem Script.avoids_flatten {ss : List Script} (h : ∀ s ∈ ss, Script.Avoids keyword s) :
    Script.Avoids keyword ss.flatten := by
  induction ss with
  | nil => exact trivial
  | cons s ss ih =>
    rw [List.flatten_cons]
    exact Script.avoids_append.2
      ⟨h s List.mem_cons_self, ih fun t ht => h t (List.mem_cons_of_mem _ ht)⟩

theorem Script.avoids_of_checks {checks : Script} (h : ∀ a ∈ checks, a.IsCheck) :
    Script.Avoids keyword checks := by
  induction checks with
  | nil => exact trivial
  | cons a checks ih =>
    refine ⟨?_, ih fun b hb => h b (List.mem_cons_of_mem a hb)⟩
    cases a with
    | within | lacking | fail => exact trivial
    | _ => exact (h _ List.mem_cons_self).elim

mutual
theorem Action.avoids_of_paired : ∀ {a : Action}, a.Paired → a.Placeless → a.Avoids keyword
  | .block _ _ _, hp, hl => ⟨Script.avoids_of_paired hp hl, fun _ => hl⟩
  | .step _ _ _, hp, hl => Script.avoids_of_paired hp hl
  | .startBlock _ _, hp, _ => hp.elim
  | .line _, _, _ | .raw _, _, _ | .endBlock _, _, _ | .within _ _, _, _ | .lacking _, _, _
  | .fail _, _, _ => trivial
/-- A script that closes what it opens and asks for no place avoids every keyword. -/
theorem Script.avoids_of_paired : ∀ {s : List Action}, Script.Paired s → Script.Placeless s →
    Script.Avoids keyword s
  | [], _, _ => trivial
  | _ :: _, hp, hl =>
    ⟨Action.avoids_of_paired hp.1 hl.1, Script.avoids_of_paired hp.2 hl.2⟩
end

mutual
theorem Action.visits_placeless : ∀ {a : Action}, a.Placeless → ∀ (d : Draft),
    ∀ v ∈ a.visits d, v.1.Placeless
  | .block k name body, hp, d, v, hv => by
    rcases List.mem_cons.1 hv with rfl | hv
    · exact hp
    · cases hstart : d.startBlock k name with
      | ok e =>
        rw [hstart] at hv
        exact Script.visits_placeless hp e v hv
      | error why =>
        rw [hstart] at hv
        cases hv
  | .step _ _ _, hp, d, v, hv => by
    rcases List.mem_cons.1 hv with rfl | hv
    · exact hp
    · exact Script.visits_placeless hp d v hv
  | .within _ _, hp, _, _, _ => hp.elim
  | .line _, _, _, v, hv | .raw _, _, _, v, hv | .startBlock _ _, _, _, v, hv
  | .endBlock _, _, _, v, hv | .lacking _, _, _, v, hv | .fail _, _, _, v, hv => by
    cases List.mem_singleton.1 hv
    exact trivial
theorem Script.visits_placeless : ∀ {s : List Action}, Script.Placeless s → ∀ (d : Draft),
    ∀ v ∈ Script.visits s d, v.1.Placeless
  | [], _, _, _, hv => by cases hv
  | _ :: _, hp, d, v, hv => by
    rcases Script.mem_visits_cons.1 hv with hv | ⟨e, -, hv⟩
    · exact Action.visits_placeless hp.1 d v hv
    · exact Script.visits_placeless hp.2 e v hv
end

/-- The draft is aligned, and at most the given number of blocks of the keyword are open. -/
structure Draft.OpensAtMost (keyword : String) (n : Nat) (d : Draft) : Prop where
  aligned : d.Aligned
  count : d.context.opened.count keyword ≤ n

namespace Draft

variable {d e : Draft} {n : Nat} {k : String}

theorem opened_of_endBlock (hd : d.Aligned) (h : d.endBlock k = .ok e) :
    d.context.opened = k :: e.context.opened := by
  have hafter := endBlock_opened_eq hd k
  rw [h] at hafter
  obtain ⟨around, hopened, hok⟩ | ⟨why, -, herror⟩ :=
    Bracket.after_closing_cases d.context.opened k
  · cases hafter.trans hok
    exact hopened
  · cases hafter.trans herror

theorem OpensAtMost.opened_of_ne (h : d.OpensAtMost keyword n) (hk : k ≠ keyword)
    (name : Option String) : (d.opened k name).OpensAtMost keyword n where
  aligned := h.aligned.opened k name
  count := by
    rw [opened_context, Context.enter, List.count_cons_of_ne hk]
    exact h.count

theorem OpensAtMost.opened_of_eq (h : d.OpensAtMost keyword n) (hk : k = keyword)
    (name : Option String) : (d.opened k name).OpensAtMost keyword (n + 1) where
  aligned := h.aligned.opened k name
  count := by
    rw [hk, opened_context, Context.enter, List.count_cons_self]
    exact Nat.succ_le_succ h.count

/-- Closing a block does not open any. -/
theorem OpensAtMost.endBlock (h : d.OpensAtMost keyword n) (he : d.endBlock k = .ok e) :
    e.OpensAtMost keyword n where
  aligned := endBlock_aligned he
  count := by
    have hcount := h.count
    rw [opened_of_endBlock h.aligned he] at hcount
    exact Nat.le_trans List.count_le_count_cons hcount

/-- Closing a block of the keyword leaves one less. -/
theorem OpensAtMost.endBlock_of_eq (h : d.OpensAtMost keyword (n + 1)) (hk : k = keyword)
    (he : d.endBlock k = .ok e) : e.OpensAtMost keyword n where
  aligned := endBlock_aligned he
  count := by
    have hcount := h.count
    rw [opened_of_endBlock h.aligned he, hk, List.count_cons_self] at hcount
    exact Nat.le_of_succ_le_succ hcount

end Draft

mutual
theorem Action.run_open : ∀ {a : Action}, a.Avoids keyword → ∀ {d : Draft} {n : Nat},
    d.OpensAtMost keyword n → (a.run d).Leaves (Draft.OpensAtMost keyword n)
  | .line text, _, d, n, hd => by
    rw [Action.run, Draft.line_eq_add hd.aligned]
    exact ⟨hd.aligned, hd.count⟩
  | .raw _, _, _, _, hd => ⟨hd.aligned, hd.count⟩
  | .startBlock k name, ha, d, n, hd => by
    rw [Action.run, Draft.startBlock_eq_opened hd.aligned]
    exact hd.opened_of_ne ha name
  | .endBlock _, _, _, _, hd => Outcome.leaves_ofBreach fun _ he => hd.endBlock he
  | .block k name body, ha, d, n, hd => by
    rw [Action.run, Draft.startBlock_eq_opened hd.aligned]
    show ((Script.run body (d.opened k name)).closing k).Leaves _
    by_cases hk : k = keyword
    · exact (Script.run_open ha.1 (hd.opened_of_eq hk name)).closing fun _ _ h he =>
        h.endBlock_of_eq hk he
    · exact (Script.run_open ha.1 (hd.opened_of_ne hk name)).closing fun _ _ h he =>
        h.endBlock he
  | .within stanza allowed, _, d, n, hd => by
    unfold Action.run
    split <;> exact hd
  | .lacking _, _, _, _, hd | .fail _, _, _, _, hd => hd
  | .step _ caught _, ha, _, _, hd => (Script.run_open ha hd).caughtIf caught
/-- **A script that avoids a keyword leaves no more blocks of it open than it has found.** -/
theorem Script.run_open : ∀ {s : List Action}, Script.Avoids keyword s → ∀ {d : Draft} {n : Nat},
    d.OpensAtMost keyword n → (Script.run s d).Leaves (Draft.OpensAtMost keyword n)
  | [], _, _, _, hd => hd
  | _ :: _, hs, _, _, hd => (Action.run_open hs.1 hd).andThen fun _ he => Script.run_open hs.2 he
end

mutual
theorem Action.visits_open : ∀ {a : Action}, a.Avoids keyword → ∀ {d : Draft} {n : Nat},
    d.OpensAtMost keyword n → ∀ v ∈ a.visits d, v.1.Placeless ∨ v.2.OpensAtMost keyword n
  | .block k name body, ha, d, n, hd, v, hv => by
    rw [Action.visits, Draft.startBlock_eq_opened hd.aligned] at hv
    rcases List.mem_cons.1 hv with rfl | hv
    · exact .inr hd
    · by_cases hk : k = keyword
      · exact .inl (Script.visits_placeless (ha.2 hk) _ v hv)
      · exact Script.visits_open ha.1 (hd.opened_of_ne hk name) v hv
  | .step _ _ body, ha, d, n, hd, v, hv => by
    rcases List.mem_cons.1 hv with rfl | hv
    · exact .inr hd
    · exact Script.visits_open ha hd v hv
  | .line _, _, _, _, hd, v, hv | .raw _, _, _, _, hd, v, hv | .startBlock _ _, _, _, _, hd, v, hv
  | .endBlock _, _, _, _, hd, v, hv | .within _ _, _, _, _, hd, v, hv
  | .lacking _, _, _, _, hd, v, hv | .fail _, _, _, _, hd, v, hv => by
    cases List.mem_singleton.1 hv
    exact .inr hd
/-- **Nor are there more when one of its actions asks for its place.** -/
theorem Script.visits_open : ∀ {s : List Action}, Script.Avoids keyword s → ∀ {d : Draft} {n : Nat},
    d.OpensAtMost keyword n → ∀ v ∈ Script.visits s d, v.1.Placeless ∨ v.2.OpensAtMost keyword n
  | [], _, _, _, _, _, hv => by cases hv
  | _ :: _, hs, d, n, hd, v, hv => by
    rcases Script.mem_visits_cons.1 hv with hv | ⟨e, hrun, hv⟩
    · exact Action.visits_open hs.1 hd v hv
    · have hleaves := Action.run_open hs.1 hd
      rw [hrun] at hleaves
      exact Script.visits_open hs.2 hleaves v hv
end

end JobFile
