/-!
# Texts and their lines

* `Text.splitOn_flatMap` : lines that are put together, each with its line break, are split again;
* `Text.joined`          : lines with line breaks between them;
* `Text.joined_splitOn`, `Text.splitOn_joined` : splitting a text into lines and joining them undo
  each other.
-/

namespace JobFile.Text

/-- The lines that are put together to a text are the lines of that text. -/
theorem splitOn_flatMap (ls : List (List Char)) (last : List Char) (h : ∀ l ∈ ls, '\n' ∉ l)
    (hlast : '\n' ∉ last) :
    (ls.flatMap (· ++ ['\n']) ++ last).splitOn '\n' = ls ++ [last] := by
  induction ls with
  | nil => simpa using List.splitOn_eq_singleton hlast
  | cons l ls ih =>
    have hrest := ih fun k hk => h k (List.mem_cons_of_mem l hk)
    rw [List.flatMap_cons, List.append_assoc, List.append_assoc, List.cons_append,
      List.nil_append, List.splitOn_append_cons_self_of_not_mem (h l List.mem_cons_self), hrest,
      List.cons_append]

/-- No line holds the character at which lines are split. -/
theorem not_mem_of_mem_splitOn {a : Char} {cs line : List Char} (h : line ∈ cs.splitOn a) :
    a ∉ line := by
  induction cs generalizing line with
  | nil =>
    rw [List.splitOn_nil, List.mem_singleton] at h
    simp [h]
  | cons c cs ih =>
    rw [List.splitOn_cons_eq_if_modifyHead] at h
    split at h
    · rcases List.mem_cons.1 h with rfl | h
      · exact List.not_mem_nil
      · exact ih h
    · rename_i hc
      obtain ⟨first, lines, hsplit⟩ := List.exists_cons_of_ne_nil (List.splitOn_ne_nil a cs)
      rw [hsplit, List.modifyHead_cons] at h
      rw [hsplit] at ih
      rcases List.mem_cons.1 h with rfl | h
      · have hfirst := ih List.mem_cons_self
        have hne : a ≠ c := by
          rintro rfl
          simp at hc
        simp [hne, hfirst]
      · exact ih (List.mem_cons_of_mem first h)

/-- Lines as one text. -/
def joined (lines : List (List Char)) : String := String.ofList (['\n'].intercalate lines)

theorem joined_splitOn (s : String) : joined (s.toList.splitOn '\n') = s := by
  simp [joined]

theorem splitOn_joined {lines : List (List Char)} (h : ∀ l ∈ lines, '\n' ∉ l)
    (hlines : lines ≠ []) : (joined lines).toList.splitOn '\n' = lines := by
  rw [joined, String.toList_ofList]
  exact List.splitOn_intercalate '\n' h hlines

end JobFile.Text
