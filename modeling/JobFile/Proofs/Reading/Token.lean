import JobFile.Proofs.Reading.Shape
import JobFile.Text.Integer

/-!
# Values stand on the line of their key

* `Text.mem_escape`     : what an escape is made of;
* `Text.printable_quote`, `Text.printable_quoteAll` : literals hold no control character, and so no
  line break;
* `newline_not_mem_headerLine` : nor do the lines of blocks hold one;
* `Text.OneLine`        : a value as it can stand on the line of its key;
* `Text.oneLine_quote`, `Text.oneLine_quoteAll`, `Text.oneLine_int`, `Text.oneLine_bool` : what is
  written for texts, lists, integers and truth values.
-/

namespace JobFile

namespace Text

/-- An escape is made of the character itself, unless that is a control character or a backslash,
and of backslashes, letters and digits. -/
theorem mem_escape {x c : Char} (h : x ∈ escape c) :
    (x = c ∧ 32 ≤ c.toNat) ∨ x ∈ "\\bfnrtu0123456789abcdef".toList := by
  have hdigit : ∀ d, d < 16 → hexDigit d ∈ "\\bfnrtu0123456789abcdef".toList := by decide
  by_cases hc : c ∈ ['"', '\\', '\x08', '\x0c', '\n', '\r', '\t']
  · revert h
    simp only [List.mem_cons, List.not_mem_nil, or_false] at hc
    rcases hc with rfl | rfl | rfl | rfl | rfl | rfl | rfl
    all_goals
      simp only [escape, Char.reduceEq, if_true, if_false, List.mem_cons, List.not_mem_nil, or_false]
      rintro (rfl | rfl) <;> decide
  · simp only [List.mem_cons, List.not_mem_nil, or_false, not_or] at hc
    obtain ⟨hq, hb, h1, h2, hn, h4, h5⟩ := hc
    simp only [escape, hq, hb, h1, h2, hn, h4, h5, if_false] at h
    split at h
    · have hhigh := hdigit (c.toNat / 16) (by omega)
      have hlow := hdigit (c.toNat % 16) (by omega)
      refine .inr ?_
      simp only [List.mem_cons, List.not_mem_nil, or_false] at h
      rcases h with rfl | rfl | rfl | rfl | rfl | rfl
      · decide
      · decide
      · decide
      · decide
      · exact hhigh
      · exact hlow
    · rename_i hhigh
      exact .inl ⟨List.mem_singleton.1 h, Nat.le_of_not_lt hhigh⟩

/-- No character is a control character below U+0020. -/
def Printable (cs : List Char) : Prop := ∀ c ∈ cs, 0x20 ≤ c.toNat

instance (cs : List Char) : Decidable (Printable cs) :=
  List.decidableBAll (fun c : Char => 0x20 ≤ c.toNat) cs

theorem Printable.newline_not_mem {cs : List Char} (h : Printable cs) : '\n' ∉ cs := by
  intro hmem
  exact absurd (h '\n' hmem) (by decide)

theorem printable_append {cs ds : List Char} :
    Printable (cs ++ ds) ↔ Printable cs ∧ Printable ds :=
  List.forall_mem_append

theorem printable_escape (c : Char) : Printable (escape c) := by
  have hmarks : Printable "\\bfnrtu0123456789abcdef".toList := by decide
  intro x hx
  rcases mem_escape hx with ⟨rfl, hhigh⟩ | hx
  · exact hhigh
  · exact hmarks x hx

theorem printable_quote (s : String) : Printable (quote s).toList := by
  have hbody : Printable (encode s.toList) := by
    intro x hx
    obtain ⟨c, -, hc⟩ := List.mem_flatMap.1 hx
    exact printable_escape c x hc
  have hmark : Printable ['"'] := by decide
  rw [toList_quote, ← List.singleton_append]
  exact printable_append.2 ⟨hmark, printable_append.2 ⟨hbody, hmark⟩⟩

theorem newline_not_mem_quote (s : String) : '\n' ∉ (quote s).toList :=
  (printable_quote s).newline_not_mem

theorem printable_quotes (separator : String) (h : Printable separator.toList)
    (items : List String) :
    Printable (String.intercalate separator (items.map quote)).toList := by
  rw [String.toList_intercalate]
  induction items with
  | nil => exact nofun
  | cons s rest ih =>
    have hs := printable_quote s
    cases rest with
    | nil => simpa using hs
    | cons t rest =>
      simp only [List.map_cons, List.intercalate_cons_cons, printable_append] at ih ⊢
      exact ⟨⟨hs, h⟩, ih⟩

theorem printable_quoteAll (items : List String) : Printable (quoteAll items).toList := by
  have hitems := printable_quotes "," (by decide) items
  simp only [quoteAll, String.toList_append, printable_append]
  exact ⟨⟨by decide, hitems⟩, by decide⟩

theorem newline_not_mem_of_plain {key : String} (h : isPlain key) : '\n' ∉ key.toList := by
  intro hmem
  have hchar := List.all_eq_true.1 (Bool.and_eq_true_iff.1 h).2 '\n' hmem
  exact absurd hchar (by decide)

/-! ## Values -/

/-- A value that can stand on the line of its key. -/
structure OneLine (s : String) : Prop where
  token : isToken s.toList
  line : '\n' ∉ s.toList

theorem isToken_of_isDigits {cs : List Char} (h : isDigits cs) : isToken cs := by
  have hall := List.all_eq_true.1 (Bool.and_eq_true_iff.1 h).2
  unfold isToken
  split
  · exact absurd (hall '"' List.mem_cons_self) (by decide)
  · exact absurd (hall '[' List.mem_cons_self) (by decide)
  · exact absurd (hall '-' List.mem_cons_self) (by decide)
  · rw [h]
    rfl

theorem newline_not_mem_of_isDigits {cs : List Char} (h : isDigits cs) : '\n' ∉ cs := by
  intro hmem
  exact absurd (List.all_eq_true.1 (Bool.and_eq_true_iff.1 h).2 '\n' hmem) (by decide)

theorem oneLine_quote (s : String) : OneLine (quote s) where
  token := by
    have hread := unquote?_quote s []
    rw [List.append_nil, toList_quote] at hread
    rw [toList_quote, isToken, hread]
    rfl
  line := newline_not_mem_quote s

theorem oneLine_quoteAll (items : List String) : OneLine (quoteAll items) where
  token := by
    have htext : (quoteAll items).toList =
        '[' :: ((String.intercalate "," (items.map quote)).toList ++ [']']) := by
      simp [quoteAll]
    rw [htext, isToken, List.getLast?_append]
    rfl
  line := (printable_quoteAll items).newline_not_mem

theorem oneLine_bool (b : Bool) : OneLine (toString b) := by
  cases b
  · exact ⟨by decide, by decide⟩
  · exact ⟨by decide, by decide⟩

theorem isDigits_repr (n : Nat) : isDigits n.repr.toList := by
  rw [Nat.toList_repr, isDigits]
  have hne : (Nat.toDigits 10 n).isEmpty = false := by
    simp
  have hall : (Nat.toDigits 10 n).all Char.isDigit = true := by
    rw [List.all_eq_true]
    intro c hc
    exact Nat.isDigit_of_mem_toDigits (by decide) (by decide) hc
  rw [hne, hall]
  rfl

/-- The digits of a number below zero stand behind a sign. -/
theorem oneLine_negative {s : String} {digits : List Char} (hs : s.toList = '-' :: digits)
    (h : isDigits digits) : OneLine s where
  token := by
    rw [hs]
    exact h
  line := by
    rw [hs]
    have hn := newline_not_mem_of_isDigits h
    simp [hn]

theorem oneLine_digits {s : String} (h : isDigits s.toList) : OneLine s :=
  ⟨isToken_of_isDigits h, newline_not_mem_of_isDigits h⟩

theorem oneLine_int (i : Int) : OneLine (toString i) := by
  cases i with
  | ofNat n => exact oneLine_digits (isDigits_repr n)
  | negSucc n =>
    have hs : (toString (Int.negSucc n)).toList = '-' :: (n + 1).repr.toList := by
      show (Int.repr (Int.negSucc n)).toList = _
      simp [Int.repr]
    exact oneLine_negative hs (isDigits_repr (n + 1))

theorem isDigit_of_le {c : Char} (h : '0' ≤ c) (h' : c ≤ '9') : c.isDigit := by
  simp only [Char.isDigit, ge_iff_le, Bool.and_eq_true, decide_eq_true_eq]
  exact ⟨h, h'⟩

theorem isDigits_of_isPositiveNumeral {cs : List Char} (h : isPositiveNumeral cs) :
    isDigits cs := by
  cases cs with
  | nil => cases h
  | cons c cs =>
    simp only [isPositiveNumeral, Bool.and_eq_true, decide_eq_true_eq, List.all_eq_true] at h
    obtain ⟨⟨hlow, hhigh⟩, hall⟩ := h
    have hc : c.isDigit := isDigit_of_le (Char.le_trans (by decide) hlow) hhigh
    have hcs : ∀ d ∈ cs, d.isDigit := fun d hd => isDigit_of_le (hall d hd).1 (hall d hd).2
    simp only [isDigits, List.isEmpty_cons, Bool.not_false, Bool.true_and, List.all_cons, hc,
      List.all_eq_true]
    exact hcs

/-- A text that denotes an integer can stand without quotes. -/
theorem oneLine_of_denotesInteger {s : String} (h : denotesInteger s) : OneLine s := by
  unfold denotesInteger isIntegerNumeral at h
  split at h
  · rename_i hzero
    refine oneLine_digits ?_
    rw [hzero]
    decide
  · rename_i digits hminus
    exact oneLine_negative hminus (isDigits_of_isPositiveNumeral h)
  · exact oneLine_digits (isDigits_of_isPositiveNumeral h)

end Text

theorem newline_not_mem_headerLine {keyword : String} (h : Text.isPlain keyword)
    (name : Option String) (bracket : String) (hb : '\n' ∉ bracket.toList) :
    '\n' ∉ (headerLine keyword name bracket).toList := by
  have hk := Text.newline_not_mem_of_plain h
  cases name with
  | none => simp [headerLine, hk, hb]
  | some n =>
    have hq := Text.newline_not_mem_quote n
    simp only [headerLine, String.toList_append, List.mem_append, not_or]
    exact ⟨⟨⟨⟨hk, by decide⟩, hq⟩, by decide⟩, hb⟩

end JobFile
