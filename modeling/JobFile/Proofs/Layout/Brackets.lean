import JobFile.Block.Refusal
import Mathlib.Data.List.Induction

/-!
# Words of brackets

* `Bracket`          : a block is opened, or closed;
* `Bracket.Nested`   : every block that is opened is closed again, and none crosses another;
* `Bracket.Unclosed` : the blocks that a word opens and does not close, the innermost first;
* `Bracket.Misfit`   : how a closing fails to fit the blocks that are open;
* `Bracket.follow`   : goes through a word, up to the first closing that does not fit;
* `Bracket.follow_eq_ok_iff`, `Bracket.follow_eq_error_iff` : where that leads, by the form of the
  word alone.
-/

namespace JobFile

/-- A block of a keyword is opened, or closed. -/
inductive Bracket where
  | opening (keyword : String)
  | closing (keyword : String)
  deriving DecidableEq, Repr

namespace Bracket

/-- How many blocks a word opens. -/
def opens : List Bracket → Nat
  | [] => 0
  | .opening _ :: w => opens w + 1
  | .closing _ :: w => opens w

/-- How many blocks a word closes. -/
def closes : List Bracket → Nat
  | [] => 0
  | .opening _ :: w => closes w
  | .closing _ :: w => closes w + 1

/-- Every block is closed by its own keyword, and after those that are opened inside it. -/
inductive Nested : List Bracket → Prop
  | nil : Nested []
  | wrap {inner rest : List Bracket} (keyword : String) (hinner : Nested inner)
    (hrest : Nested rest) : Nested (.opening keyword :: (inner ++ .closing keyword :: rest))

/-- The keywords of the blocks that a word opens and does not close, the innermost first. -/
inductive Unclosed : List Bracket → List String → Prop
  | nested {w : List Bracket} (h : Nested w) : Unclosed w []
  | opening {w inner : List Bracket} {keywords : List String} (keyword : String)
    (h : Unclosed w keywords) (hinner : Nested inner) :
    Unclosed (w ++ .opening keyword :: inner) (keyword :: keywords)

/-- What goes wrong when a block of the given keyword is closed while the given ones are open. -/
inductive Misfit : List String → String → Breach → Prop
  | outside (keyword : String) : Misfit [] keyword .noIndent
  | crossing {innermost keyword : String} (around : List String) (h : innermost ≠ keyword) :
    Misfit (innermost :: around) keyword (.outOfOrder keyword innermost)

/-! ## Going through a word -/

/-- The open blocks after a bracket. -/
def after (opened : List String) : Bracket → Except Breach (List String)
  | .opening keyword => .ok (keyword :: opened)
  | .closing keyword =>
    match opened with
    | [] => .error .noIndent
    | innermost :: around =>
      if innermost = keyword then .ok around else .error (.outOfOrder keyword innermost)

/-- The open blocks after a word, or what goes wrong first. -/
def follow (opened : List String) : List Bracket → Except Breach (List String)
  | [] => .ok opened
  | b :: w => do
    let opened ← after opened b
    follow opened w

theorem opens_append (u v : List Bracket) : opens (u ++ v) = opens u + opens v := by
  induction u with
  | nil => simp [opens]
  | cons b u ih =>
    cases b
    · simp only [List.cons_append, opens, ih]
      omega
    · simp only [List.cons_append, opens, ih]

theorem closes_append (u v : List Bracket) : closes (u ++ v) = closes u + closes v := by
  induction u with
  | nil => simp [closes]
  | cons b u ih =>
    cases b
    · simp only [List.cons_append, closes, ih]
    · simp only [List.cons_append, closes, ih]
      omega

variable {opened keywords : List String} {keyword : String} {why : Breach} {u v w : List Bracket}

theorem follow_append (opened : List String) (u v : List Bracket) :
    follow opened (u ++ v) = follow opened u >>= fun opened => follow opened v := by
  induction u generalizing opened with
  | nil => rfl
  | cons b u ih =>
    simp only [List.cons_append, follow, bind_assoc, ih]

theorem follow_singleton (opened : List String) (b : Bracket) :
    follow opened [b] = after opened b := by
  cases h : after opened b <;> simp [follow, h, bind, Except.bind]

theorem follow_append_of_ok (h : follow opened u = .ok keywords) (v : List Bracket) :
    follow opened (u ++ v) = follow keywords v := by
  rw [follow_append, h]
  rfl

theorem follow_append_of_error (h : follow opened u = .error why) (v : List Bracket) :
    follow opened (u ++ v) = .error why := by
  rw [follow_append, h]
  rfl

theorem after_closing_of_misfit (h : Misfit opened keyword why) :
    after opened (.closing keyword) = .error why := by
  cases h with
  | outside => rfl
  | crossing around hne => exact if_neg hne

/-- A closing fits the innermost open block, or it fits none. -/
theorem after_closing_cases (opened : List String) (keyword : String) :
    (∃ around, opened = keyword :: around ∧ after opened (.closing keyword) = .ok around) ∨
      ∃ why, Misfit opened keyword why ∧ after opened (.closing keyword) = .error why := by
  cases opened with
  | nil => exact .inr ⟨.noIndent, .outside keyword, rfl⟩
  | cons innermost around =>
    by_cases h : innermost = keyword
    · subst h
      exact .inl ⟨around, rfl, if_pos rfl⟩
    · exact .inr ⟨_, .crossing around h, if_neg h⟩

/-! ## Words that do not go wrong -/

namespace Nested

theorem append (hu : Nested u) (hv : Nested v) : Nested (u ++ v) := by
  induction hu with
  | nil => exact hv
  | wrap keyword hinner hrest _ ih =>
    rw [List.cons_append, List.append_assoc, List.cons_append]
    exact .wrap keyword hinner ih

/-- A nested word leaves the open blocks as they are. -/
theorem follow_eq (h : Nested w) (opened : List String) : follow opened w = .ok opened := by
  induction h generalizing opened with
  | nil => rfl
  | wrap keyword _ _ hinner hrest =>
    show follow (keyword :: opened) _ = _
    rw [follow_append_of_ok (hinner _)]
    show after (keyword :: opened) (.closing keyword) >>= _ = _
    rw [after, if_pos rfl]
    exact hrest opened

/-- A nested word closes as many blocks as it opens. -/
theorem opens_eq (h : Nested w) : opens w = closes w := by
  induction h with
  | nil => rfl
  | wrap keyword _ _ hinner hrest =>
    simp only [opens, closes, opens_append, closes_append, hinner, hrest]
    omega

end Nested

namespace Unclosed

/-- What is opened and closed again at the end makes no difference. -/
theorem append_nested (h : Unclosed u keywords) (hv : Nested v) : Unclosed (u ++ v) keywords := by
  cases h with
  | nested hu => exact .nested (hu.append hv)
  | opening keyword hu hinner =>
    rw [List.append_assoc, List.cons_append]
    exact .opening keyword hu (hinner.append hv)

/-- Closing the innermost block leaves those around it. -/
theorem append_closing (h : Unclosed u (keyword :: keywords)) :
    Unclosed (u ++ [.closing keyword]) keywords := by
  cases h with
  | opening _ hu hinner =>
    rw [List.append_assoc, List.cons_append]
    exact hu.append_nested (.wrap keyword hinner .nil)

theorem follow_eq (h : Unclosed w keywords) : follow [] w = .ok keywords := by
  induction h with
  | nested h => exact h.follow_eq []
  | opening keyword _ hinner ih =>
    rw [follow_append_of_ok ih]
    exact hinner.follow_eq _

/-- The blocks that are open are those opened, less those closed. -/
theorem opens_eq (h : Unclosed w keywords) : opens w = closes w + keywords.length := by
  induction h with
  | nested h => exact h.opens_eq
  | opening keyword _ hinner ih =>
    simp only [opens_append, closes_append, opens, closes, hinner.opens_eq, ih, List.length_cons]
    omega

end Unclosed

theorem nested_of_unclosed (h : Unclosed w []) : Nested w := by
  cases h with
  | nested h => exact h

theorem unclosed_of_follow (h : follow [] w = .ok keywords) : Unclosed w keywords := by
  induction w using List.reverseRecOn generalizing keywords with
  | nil =>
    cases h
    exact .nested .nil
  | append_singleton w b ih =>
    cases hw : follow [] w with
    | error why =>
      rw [follow_append, hw] at h
      cases h
    | ok opened =>
      rw [follow_append_of_ok hw, follow_singleton] at h
      cases b with
      | opening keyword =>
        cases h
        exact .opening keyword (ih hw) .nil
      | closing keyword =>
        obtain ⟨around, rfl, hafter⟩ | ⟨why, -, hafter⟩ := after_closing_cases opened keyword
        · cases hafter.symm.trans h
          exact (ih hw).append_closing
        · cases hafter.symm.trans h

/-- **A word is gone through to its end if every closing fits**, and then leaves open what it does
not close. -/
theorem follow_eq_ok_iff : follow [] w = .ok keywords ↔ Unclosed w keywords :=
  ⟨unclosed_of_follow, Unclosed.follow_eq⟩

/-- **The first closing that does not fit says what goes wrong.** -/
theorem follow_eq_error_iff :
    follow [] w = .error why ↔ ∃ u keyword v keywords,
      w = u ++ .closing keyword :: v ∧ Unclosed u keywords ∧ Misfit keywords keyword why := by
  constructor
  · intro h
    induction w using List.reverseRecOn with
    | nil => cases h
    | append_singleton w b ih =>
      cases hw : follow [] w with
      | error why' =>
        rw [follow_append_of_error hw] at h
        cases h
        obtain ⟨u, keyword, v, keywords, rfl, hu, hmisfit⟩ := ih hw
        exact ⟨u, keyword, v ++ [b], keywords, by simp, hu, hmisfit⟩
      | ok opened =>
        rw [follow_append_of_ok hw, follow_singleton] at h
        cases b with
        | opening keyword => cases h
        | closing keyword =>
          obtain ⟨around, rfl, hafter⟩ | ⟨why', hmisfit, hafter⟩ :=
            after_closing_cases opened keyword
          · cases hafter.symm.trans h
          · cases hafter.symm.trans h
            exact ⟨w, keyword, [], opened, rfl, unclosed_of_follow hw, hmisfit⟩
  · rintro ⟨u, keyword, v, keywords, rfl, hu, hmisfit⟩
    rw [follow_append_of_ok hu.follow_eq, follow, after_closing_of_misfit hmisfit]
    rfl

end Bracket

end JobFile
