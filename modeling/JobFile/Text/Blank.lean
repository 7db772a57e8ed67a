/-!
# Blank characters

* `isBlank`  : the characters with the Unicode property `White_Space`;
* `trimEnd`  : a text without the blanks at its end.
-/

namespace JobFile.Text

/-- The twenty-five characters with the property `White_Space`, as ranges of code points. -/
def blankRanges : List (Nat × Nat) :=
  [(0x09, 0x0d), (0x20, 0x20), (0x85, 0x85), (0xa0, 0xa0), (0x1680, 0x1680), (0x2000, 0x200a),
    (0x2028, 0x2029), (0x202f, 0x202f), (0x205f, 0x205f), (0x3000, 0x3000)]

/-- Is the character blank? -/
def isBlank (c : Char) : Bool :=
  blankRanges.any fun (first, last) => first ≤ c.toNat && c.toNat ≤ last

/-- The characters of a text up to its last one that is not blank. -/
def trimBlanks (cs : List Char) : List Char := (cs.reverse.dropWhile isBlank).reverse

/-- A text without the blanks at its end. -/
def trimEnd (s : String) : String := String.ofList (trimBlanks s.toList)

@[simp] theorem toList_trimEnd (s : String) : (trimEnd s).toList = trimBlanks s.toList := by
  simp [trimEnd]

/-- No blank remains at the end. -/
theorem isBlank_getLast_trimBlanks (cs : List Char) :
    ∀ c ∈ (trimBlanks cs).getLast?, isBlank c = false := by
  intro c hc
  rw [trimBlanks, List.getLast?_reverse] at hc
  have h := List.head?_dropWhile_not isBlank cs.reverse
  rw [Option.mem_def] at hc
  rw [hc] at h
  simpa using h

end JobFile.Text
