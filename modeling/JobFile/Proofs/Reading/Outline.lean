import JobFile.Proofs.Reading.Reader

/-!
# Brackets and indentation

* `Outline`               : how many blocks are open, and whether a document has not ended;
* `Outline.step`          : what a line changes, judged by its two ends alone;
* `Outline.Balanced`      : every bracket of a text is closed again, and every line outside documents
  is indented by the blocks around it;
* `Shape.ofLine?_ends`    : the end of a line tells whether it opens a block or a document;
* `Reader.step_outline`   : what reads a line also keeps its outline;
* `Reader.balanced_of_read` : a text that can be read is balanced.

An outline knows no keys, names or values.  So it can be kept without reading any of them.
-/

namespace JobFile

/-- How many blocks are open, and whether a document has not ended. -/
structure Outline where
  depth : Nat := 0
  inDocument : Bool := false
  deriving DecidableEq, Repr

namespace Outline

/-- The blocks around a line, which is given without its indentation. -/
def around (o : Outline) (text : List Char) : Nat :=
  if text = ['\x7d'] then o.depth - 1 else o.depth

/-- What such a line opens. -/
def next (o : Outline) (text : List Char) : Outline where
  depth := if [' ', '\x7b'] <:+ text then o.around text + 1 else o.around text
  inDocument := Shape.documentMark <:+ text

/-- What a line changes.  Outside documents it has to be indented by the blocks around it. -/
def step (o : Outline) (line : List Char) : Option Outline :=
  let text := Reader.unindented line
  if o.inDocument then some { o with inDocument := line ≠ Assign.endMark.toList }
  else if line = [] then some o
  else if text = ['\x7d'] ∧ o.depth = 0 then none
  else if line.length = 2 * o.around text + text.length then some (o.next text)
  else none

/-- Is every bracket closed again, and every line outside documents indented by the blocks around
it? -/
def Balanced (text : String) : Prop := (text.toList.splitOn '\n').foldlM step {} = some {}

instance (text : String) : Decidable (Balanced text) := inferInstanceAs (Decidable (_ = _))

end Outline

/-! ## The ends of lines -/

theorem getLast?_of_suffix {s l : List Char} (h : s <:+ l) {c : Char} (hs : s.getLast? = some c) :
    l.getLast? = some c := by
  obtain ⟨front, rfl⟩ := h
  rw [List.getLast?_append, hs]
  rfl

/-- A list does not end with what has another last element. -/
theorem not_suffix_of_getLast? {s l : List Char} {c d : Char} (hs : s.getLast? = some c)
    (hl : l.getLast? = some d) (hne : d ≠ c) : ¬s <:+ l := by
  intro h
  rw [getLast?_of_suffix h hs] at hl
  exact hne (Option.some.inj hl).symm

namespace Text

/-- What follows a literal follows the quote that closes it. -/
theorem scan_suffix (cs : List Char) : ∀ (ps : List Piece) (after : List Char),
    scan cs = some (ps, after) → '"' :: after <:+ cs := by
  fun_induction scan cs with
  | case1 | case4 | case6 | case7 | case9 => nofun
  | case2 rest =>
    intro ps after h
    cases h
    exact List.suffix_refl _
  | case3 a b c d rest n _ _ hs _ ih =>
    intro ps after h
    cases h
    exact (ih _ _ hs).trans (List.suffix_append ['\\', 'u', a, b, c, d] rest)
  | case5 e rest _ _ _ _ hs _ ih =>
    intro ps after h
    cases h
    exact (ih _ _ hs).trans (List.suffix_append ['\\', e] rest)
  | case8 c rest _ _ _ _ _ _ hs ih =>
    intro ps after h
    cases h
    exact (ih _ _ hs).trans (List.suffix_cons c rest)

theorem unquote?_suffix {cs name after : List Char} (h : unquote? cs = some (name, after)) :
    '"' :: after <:+ cs := by
  unfold unquote? at h
  split at h
  · rename_i rest
    cases hs : scan rest with
    | none =>
      rw [hs] at h
      cases h
    | some x =>
      obtain ⟨ps, after'⟩ := x
      rw [hs] at h
      obtain ⟨text, -, htext⟩ := Option.map_eq_some_iff.1 h
      cases htext
      exact (scan_suffix rest ps after hs).trans (List.suffix_cons '"' rest)
  · cases h

/-- The last characters of the lines that open a block or a document. -/
def isOpen (c : Char) : Bool := c == '\x7b' || c == 'B'

theorem getLast?_of_isDigits {cs : List Char} (h : isDigits cs) :
    ∃ c, cs.getLast? = some c ∧ isOpen c = false := by
  obtain ⟨hne, hall⟩ := Bool.and_eq_true_iff.1 h
  cases hc : cs.getLast? with
  | none => simp [List.getLast?_eq_none_iff.1 hc] at hne
  | some c =>
    have hdigit := List.all_eq_true.1 hall c (List.mem_of_getLast? hc)
    refine ⟨c, rfl, ?_⟩
    cases hopen : isOpen c with
    | false => rfl
    | true =>
      simp only [isOpen, Bool.or_eq_true, beq_iff_eq] at hopen
      rcases hopen with rfl | rfl <;> exact absurd hdigit (by decide)

/-- No value ends like the line of a block or of a document. -/
theorem getLast?_of_isToken {cs : List Char} (h : isToken cs) :
    ∃ c, cs.getLast? = some c ∧ isOpen c = false := by
  unfold isToken at h
  split at h
  · rename_i inside
    cases hread : unquote? ('"' :: inside) with
    | none =>
      rw [hread] at h
      cases h
    | some x =>
      obtain ⟨name, after⟩ := x
      rw [hread, Option.any_some, List.isEmpty_iff] at h
      have hquote : '"' :: after <:+ '"' :: inside := unquote?_suffix hread
      rw [h] at hquote
      exact ⟨'"', getLast?_of_suffix hquote rfl, by decide⟩
  · rename_i items
    have hbracket : items.getLast? = some ']' := by simpa using h
    exact ⟨']', getLast?_of_suffix (List.suffix_cons '[' items) hbracket, by decide⟩
  · rename_i digits
    obtain ⟨c, hc, hopen⟩ := getLast?_of_isDigits h
    exact ⟨c, getLast?_of_suffix (List.suffix_cons '-' digits) hc, hopen⟩
  · simp only [Bool.or_eq_true, beq_iff_eq] at h
    rcases h with (h | rfl) | rfl
    · exact getLast?_of_isDigits h
    · exact ⟨'e', rfl, by decide⟩
    · exact ⟨'e', rfl, by decide⟩

end Text

namespace Shape

/-- What the end of a line tells about its shape. -/
def Ends (line : List Char) : Shape → Prop
  | .close => line = ['\x7d']
  | .opening _ _ => [' ', '\x7b'] <:+ line
  | .document _ => documentMark <:+ line
  | .empty _ _ | .assign _ _ => ∃ c, line.getLast? = some c ∧ c ≠ '\x7b' ∧ c ≠ 'B'

theorem ofBracket?_ends {keyword : String} {name : Option String} {bracket line : List Char}
    {shape : Shape} (h : ofBracket? keyword name bracket = some shape)
    (hline : ' ' :: bracket <:+ line) : shape.Ends line := by
  unfold ofBracket? at h
  split at h
  · cases h
    exact hline
  · cases h
    exact ⟨'\x7d', getLast?_of_suffix hline rfl, by decide, by decide⟩
  · cases h

theorem ofTail?_ends {key : String} {tail line : List Char} {shape : Shape}
    (h : ofTail? key tail = some shape) (hline : ' ' :: tail <:+ line) : shape.Ends line := by
  unfold ofTail? at h
  split at h
  · rename_i token
    have htoken : token <:+ line :=
      (List.suffix_append [' ', '=', ' '] token).trans hline
    split at h
    · rename_i hmark
      cases h
      rw [hmark] at htoken
      exact htoken
    · split at h
      · rename_i ht
        cases h
        obtain ⟨c, hc, hopen⟩ := Text.getLast?_of_isToken ht
        have hne : c ≠ '\x7b' ∧ c ≠ 'B' := by
          constructor <;> rintro rfl <;> exact absurd hopen (by decide)
        exact ⟨c, getLast?_of_suffix htoken hc, hne⟩
      · cases h
  · rename_i inside
    split at h
    · rename_i name bracket hread
      have hafter := (Text.unquote?_suffix hread).trans (List.suffix_cons ' ' _)
      exact ofBracket?_ends h ((List.suffix_cons '"' _).trans (hafter.trans hline))
    · cases h
  · exact ofBracket?_ends h hline

/-- **The end of a line tells what it opens**: no value and no name can end a line like the bracket
of a block or the mark of a document. -/
theorem ofLine?_ends {line : List Char} {shape : Shape} (h : ofLine? line = some shape) :
    shape.Ends line := by
  unfold ofLine? at h
  split at h
  · rename_i hclose
    cases h
    exact hclose
  · split at h
    · cases h
    · rename_i tail hdrop _
      have hsuffix : ' ' :: tail <:+ line := by
        rw [← hdrop]
        exact List.dropWhile_suffix Text.isKeyChar
      exact ofTail?_ends h hsuffix
    · cases h

end Shape

/-! ## Outlines of readers -/

namespace Reader

/-- The outline of what has been read. -/
def outline (r : Reader) : Outline := ⟨r.depth, r.document.isSome⟩

/-- Taking a line in changes the outline as the end of the line tells. -/
theorem place_outline {r r' : Reader} {text : List Char} {shape : Shape} (hr : r.document = none)
    (hs : Shape.ofLine? text = some shape) (h : r.place shape = some r') :
    ¬(text = ['\x7d'] ∧ r.outline.depth = 0) ∧ r.outline.around text = r.around shape ∧
      r'.outline = r.outline.next text := by
  have hends := Shape.ofLine?_ends hs
  have hclose : text = ['\x7d'] → shape = .close := by
    intro htext
    rw [htext, Shape.ofLine?_close] at hs
    exact (Option.some.inj hs).symm
  obtain ⟨opened, entries, document⟩ := r
  cases (hr : document = none)
  cases shape with
  | close =>
    cases (hends : text = ['\x7d'])
    cases opened with
    | nil => cases h
    | cons f outer =>
      cases h
      exact ⟨by simp [outline, depth], rfl, rfl⟩
  | opening keyword name =>
    cases h
    have hne : text ≠ ['\x7d'] := fun htext => by cases hclose htext
    have hbracket : [' ', '\x7b'] <:+ text := hends
    have hmark : ¬Shape.documentMark <:+ text :=
      not_suffix_of_getLast? rfl (getLast?_of_suffix hbracket rfl) (by decide)
    simp [hne, around, outline, Outline.around, Outline.next, hbracket, hmark]
  | document key =>
    cases h
    have hne : text ≠ ['\x7d'] := fun htext => by cases hclose htext
    have hend : Shape.documentMark <:+ text := hends
    have hopening : ¬[' ', '\x7b'] <:+ text :=
      not_suffix_of_getLast? rfl (getLast?_of_suffix hend rfl) (by decide)
    simp [hne, around, outline, Outline.around, Outline.next, depth, hend, hopening]
  | empty | assign =>
    cases h
    have hne : text ≠ ['\x7d'] := fun htext => by cases hclose htext
    obtain ⟨c, hlast, hbracket, hB⟩ := hends
    have hopening : ¬[' ', '\x7b'] <:+ text := not_suffix_of_getLast? rfl hlast hbracket
    have hmark : ¬Shape.documentMark <:+ text := not_suffix_of_getLast? rfl hlast hB
    simp [hne, around, outline, Outline.around, Outline.next, hopening, hmark]

/-- **What reads a line keeps its outline**: the line is indented by the blocks around it, and opens
and closes what its end tells. -/
theorem step_outline {r r' : Reader} {line : List Char} (h : r.step line = some r') :
    r.outline.step line = some r'.outline := by
  cases hr : r.document with
  | some kept =>
    obtain ⟨key, lines⟩ := kept
    have hin : r.outline.inDocument = true := by simp [outline, hr]
    simp only [step, hr] at h
    rw [Outline.step, if_pos hin]
    split at h
    · rename_i hend
      cases h
      simp [outline, hend, depth]
    · rename_i hend
      cases h
      simp [outline, hend, depth]
  | none =>
    have hout : ¬r.outline.inDocument = true := by simp [outline, hr]
    simp only [step, hr] at h
    rw [Outline.step, if_neg hout]
    split at h
    · rename_i hnil
      cases h
      rw [if_pos hnil]
    · rename_i hne
      rw [if_neg hne]
      split at h
      · rename_i shape hs
        split at h
        · rename_i hlen
          obtain ⟨hclose, haround, houtline⟩ := place_outline hr hs h
          rw [← haround] at hlen
          rw [if_neg hclose, if_pos hlen, houtline]
        · cases h
      · cases h

theorem foldlM_outline (lines : List (List Char)) : ∀ r r' : Reader,
    lines.foldlM step r = some r' → lines.foldlM Outline.step r.outline = some r'.outline := by
  induction lines with
  | nil =>
    intro r r' h
    cases h
    rfl
  | cons line lines ih =>
    intro r r' h
    rw [List.foldlM_cons] at h ⊢
    cases hs : r.step line with
    | none =>
      rw [hs] at h
      cases h
    | some s =>
      rw [hs] at h
      rw [step_outline hs]
      exact ih s r' h

/-- **A text that can be read is balanced.** -/
theorem balanced_of_read {text : String} {es : List Entry} (h : read text = some es) :
    Outline.Balanced text := by
  unfold read at h
  split at h
  · rename_i hread
    exact foldlM_outline _ {} _ hread
  · cases h

end Reader

end JobFile
