import JobFile.Catalog.Credentials
import JobFile.Proofs.Reading.Lines
import JobFile.Proofs.Reading.Token
import JobFile.Text.Blank

/-!
# The lines of credential templates

* `Store.front`          : the lines of a template before the one that ends it;
* `Store.trimEnd_template` : without the blanks at its end, a template ends with its last line;
* `Store.lines_template` : its lines, as they are read back;
* `Store.endMark_not_mem_template` : none of them ends a document.

The paths stand between quotes, so whatever they hold stays on the first line.
-/

namespace JobFile

/-- A character that is not blank stays at the end of a text. -/
theorem Text.trimBlanks_append (cs : List Char) {c : Char} (h : Text.isBlank c = false) :
    Text.trimBlanks (cs ++ [c] ++ ['\n']) = cs ++ [c] := by
  have hbreak : Text.isBlank '\n' = true := by decide
  simp [Text.trimBlanks, hbreak, h]

namespace Store

/-- The lines of a template before the one that ends it. -/
def front (s : Store) (paths : List String) (exported : Bool) : List String :=
  expression ("with secret " ++ String.intercalate " " (paths.map Text.quote))
    :: s.assignments (if exported then "export " else "")

/-- No line that sets a variable is broken or ends a document. -/
theorem mem_assignments (s : Store) (exported : Bool) :
    ∀ l ∈ s.assignments (if exported then "export " else ""),
      '\n' ∉ l.toList ∧ l.toList ≠ Assign.endMark.toList := by
  cases s <;> cases exported <;> decide

theorem mem_front (s : Store) (paths : List String) (exported : Bool) :
    ∀ l ∈ s.front paths exported, '\n' ∉ l.toList ∧ l.toList ≠ Assign.endMark.toList := by
  intro l hl
  rcases List.mem_cons.1 hl with rfl | hl
  · have hpaths := (Text.printable_quotes " " (by decide) paths).newline_not_mem
    constructor
    · simp only [expression, String.toList_append, List.mem_append, not_or]
      exact ⟨⟨by decide, by decide, hpaths⟩, by decide⟩
    · intro heq
      have hhead := congrArg List.head? heq
      simp [expression, Assign.endMark] at hhead
  · exact s.mem_assignments exported l hl

theorem toList_template (s : Store) (paths : List String) (exported : Bool) :
    (s.template paths exported).toList =
      ((s.front paths exported).map String.toList).flatMap (· ++ ['\n'])
        ++ (expression "end").toList ++ ['\n'] := by
  show (String.join ((s.front paths exported ++ [expression "end"]).map (· ++ "\n"))).toList = _
  rw [String.toList_join]
  simp [List.flatMap_map]

/-- The blanks at the end of a template are the line break behind its last line. -/
theorem trimEnd_template (s : Store) (paths : List String) (exported : Bool) :
    (Text.trimEnd (s.template paths exported)).toList =
      ((s.front paths exported).map String.toList).flatMap (· ++ ['\n'])
        ++ (expression "end").toList := by
  have hend : (expression "end").toList = "\x7b\x7bend\x7d".toList ++ ['\x7d'] := by decide
  rw [Text.toList_trimEnd, toList_template, hend, ← List.append_assoc,
    Text.trimBlanks_append _ (by decide)]

/-- **The lines of a template are those that it has been put together from**, whatever the paths
hold. -/
theorem lines_template (s : Store) (paths : List String) (exported : Bool) :
    (Text.trimEnd (s.template paths exported)).toList.splitOn '\n' =
      (s.front paths exported).map String.toList ++ [(expression "end").toList] := by
  rw [trimEnd_template]
  apply Text.splitOn_flatMap
  · intro l hl
    obtain ⟨line, hline, rfl⟩ := List.mem_map.1 hl
    exact (s.mem_front paths exported line hline).1
  · decide

theorem endMark_not_mem_template (s : Store) (paths : List String) (exported : Bool) :
    Assign.endMark.toList ∉ (Text.trimEnd (s.template paths exported)).toList.splitOn '\n' := by
  rw [lines_template]
  intro hmem
  rcases List.mem_append.1 hmem with hmem | hmem
  · obtain ⟨line, hline, heq⟩ := List.mem_map.1 hmem
    exact (s.mem_front paths exported line hline).2 heq
  · exact absurd (List.mem_singleton.1 hmem) (by decide)

end Store

end JobFile
