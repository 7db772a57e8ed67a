import JobFile.Text.Quoted

/-!
# Reading string literals back

* `scan_escape`    : an escaped character is scanned as that character;
* `scan_encode`    : an encoded text is scanned up to the quote that closes it;
* `unquote?_quote` : a literal reads back as its text, whatever follows it;
* `quote_injective` : so that it tells its text.

Nothing between the quotes can end a literal early, because the two characters that could are
escaped.
-/

namespace JobFile.Text

theorem hexValue?_hexDigit : ∀ d, d < 16 → hexValue? (hexDigit d) = some d := by decide

/-! ## One character -/

/-- A character in front of what has been scanned. -/
def push (c : Char) (x : List Piece × List Char) : List Piece × List Char := (.char c :: x.1, x.2)

theorem scan_letter {e c : Char} (rest : List Char) (h : unescape? e = some c) :
    scan ('\\' :: e :: rest) = (scan rest).map (push c) := by
  have hu : e ≠ 'u' := by rintro rfl; simp [unescape?] at h
  rw [scan.eq_def]
  split <;> simp_all
  · cases hs : scan rest <;> simp_all [push]
  · rename_i hn heq
    exact absurd heq.2.symm (hn _ _ heq.1.symm)

theorem scan_unit {a b c d : Char} {n : Nat} (rest : List Char) (h : hexUnit? a b c d = some n) :
    scan ('\\' :: 'u' :: a :: b :: c :: d :: rest) =
      (scan rest).map fun x => (.ofUnit n :: x.1, x.2) := by
  simp only [scan, h]
  cases scan rest <;> rfl

theorem scan_plain {c : Char} (rest : List Char) (hq : c ≠ '"') (hb : c ≠ '\\')
    (h : ¬c.toNat < 32) :
    scan (c :: rest) = (scan rest).map (push c) := by
  rw [scan.eq_def]
  split <;> simp_all
  cases hs : scan rest <;> simp_all [push]

theorem scan_escape (c : Char) (rest : List Char) :
    scan (escape c ++ rest) = (scan rest).map (push c) := by
  by_cases h : c ∈ ['"', '\\', '\x08', '\x0c', '\n', '\r', '\t']
  · simp only [List.mem_cons, List.not_mem_nil, or_false] at h
    rcases h with rfl | rfl | rfl | rfl | rfl | rfl | rfl <;> exact scan_letter rest rfl
  · simp only [List.mem_cons, List.not_mem_nil, or_false, not_or] at h
    obtain ⟨hq, hb, h1, h2, h3, h4, h5⟩ := h
    simp only [escape, hq, hb, h1, h2, h3, h4, h5, if_false]
    split
    · rename_i hc
      have ha := hexValue?_hexDigit (c.toNat / 16) (by omega)
      have hb := hexValue?_hexDigit (c.toNat % 16) (by omega)
      have hz : hexValue? '0' = some 0 := by decide
      have hu : hexUnit? '0' '0' (hexDigit (c.toNat / 16)) (hexDigit (c.toNat % 16)) =
          some c.toNat := by
        simp only [hexUnit?, ha, hb, hz]
        congr 1
        omega
      have hp : Piece.ofUnit c.toNat = .char c := by
        have h1 : ¬(0xD800 ≤ c.toNat ∧ c.toNat ≤ 0xDBFF) := by omega
        have h2 : ¬(0xDC00 ≤ c.toNat ∧ c.toNat ≤ 0xDFFF) := by omega
        simp [Piece.ofUnit, h1, h2, Char.ofNat_toNat]
      simp only [List.cons_append, List.nil_append]
      rw [scan_unit rest hu, hp]
      rfl
    · rename_i hc
      exact scan_plain rest hq hb hc

/-! ## Whole texts -/

/-- What has been encoded is scanned up to the closing quote. -/
theorem scan_encode (cs rest : List Char) :
    scan (encode cs ++ '"' :: rest) = some (cs.map .char, rest) := by
  induction cs with
  | nil => rfl
  | cons c cs ih =>
    rw [encode_cons, List.append_assoc, scan_escape, ih]
    rfl

theorem assemble_map_char (cs : List Char) : assemble (cs.map .char) = some cs := by
  induction cs with
  | nil => rfl
  | cons c cs ih => simp [assemble, ih]

/-- A literal reads back as the text that it was written for. -/
theorem unquote?_quote (s : String) (rest : List Char) :
    unquote? ((quote s).toList ++ rest) = some (s.toList, rest) := by
  simp [unquote?, scan_encode, assemble_map_char]

theorem quote_injective {s t : String} (h : quote s = quote t) : s = t := by
  have hs := unquote?_quote s []
  have ht := unquote?_quote t []
  rw [h, ht] at hs
  have hlist : t.toList = s.toList := congrArg Prod.fst (Option.some.inj hs)
  exact (String.toList_injective hlist).symm

end JobFile.Text
