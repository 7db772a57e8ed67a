import Mathlib
import JobFile.Proofs.Reading.Literal

/-!
# Integers without quotes

* `Text.denotesInteger_iff`      : the texts that denote an integer are the decimal forms of all
  integers, whatever their size;
* `Text.token`                   : what is written for a text by its shape;
* `Text.numerals_exact`          : an integer and the text of its decimal form are written alike,
  and what is written for a text tells the text;
* `Value.run_numeral`            : an integer of a JSON text is written as it stands in the text, if
  it lies between `-2 ^ 63` and `2 ^ 64 - 1`, and refused as a double if it does not.

The number of digits is not bounded, so decimal forms are followed digit by digit.  A text is only
ever written without quotes if its first character is a digit or a minus sign, which begins no
literal of a text.
-/

namespace JobFile

open Decimal (IsExact Literal ofDigits)

namespace Text

/-! ## Decimal forms -/

/-- A digit is the one of its value. -/
theorem digitChar_value {c : Char} (h : c.isDigit = true) :
    c.toNat - 48 < 10 ∧ (c.toNat - 48).digitChar = c := by
  have hc : 48 ≤ c.toNat ∧ c.toNat ≤ 57 := Char.isDigit_iff_toNat.1 h
  have hlt : c.toNat - 48 < 10 := by omega
  refine ⟨hlt, Char.toNat_inj.1 ?_⟩
  rw [Nat.toNat_digitChar_of_lt_ten hlt]
  omega

/-- Digits behind a positive number make its decimal form longer. -/
theorem toDigits_append_digits {cs : List Char} (hcs : ∀ c ∈ cs, c.isDigit = true) {n : Nat}
    (hn : 0 < n) :
    ∃ m, 0 < m ∧ Nat.toDigits 10 n ++ cs = Nat.toDigits 10 m := by
  induction cs generalizing n with
  | nil => exact ⟨n, hn, List.append_nil _⟩
  | cons c cs ih =>
    obtain ⟨hlt, hc⟩ := digitChar_value (hcs c List.mem_cons_self)
    have hnext : Nat.toDigits 10 n ++ [c] = Nat.toDigits 10 (10 * n + (c.toNat - 48)) := by
      rw [← Nat.toDigits_append_toDigits (by decide) hn hlt, Nat.toDigits_of_lt_base hlt, hc]
    rw [List.append_cons, hnext]
    exact ih (fun d hd => hcs d (List.mem_cons_of_mem c hd)) (by omega)

/-- A positive numeral consists of digits, of which the first is not zero. -/
theorem isPositiveNumeral_cons {c : Char} {cs : List Char} :
    isPositiveNumeral (c :: cs) = true ↔ c ≠ '0' ∧ ∀ d ∈ c :: cs, d.isDigit = true := by
  have hdigit : ∀ d : Char, d.isDigit = true ↔ '0' ≤ d ∧ d ≤ '9' := fun _ =>
    Char.isDigit_iff_toNat
  have hfirst : '1' ≤ c ∧ c ≤ '9' ↔ c ≠ '0' ∧ c.isDigit = true := by
    have hone : '1' ≤ c ↔ 49 ≤ c.toNat := Iff.rfl
    have hnine : c ≤ '9' ↔ c.toNat ≤ 57 := Iff.rfl
    have hzero : c = '0' ↔ c.toNat = 48 := Char.toNat_inj.symm
    have hc : c.isDigit = true ↔ 48 ≤ c.toNat ∧ c.toNat ≤ 57 := Char.isDigit_iff_toNat
    rw [Ne, hone, hnine, hzero, hc]
    omega
  simp only [isPositiveNumeral, Bool.and_eq_true, decide_eq_true_eq, List.all_eq_true, hfirst,
    List.forall_mem_cons, ← hdigit, and_assoc]

/-- **Positive numerals are the decimal forms of the positive numbers.** -/
theorem isPositiveNumeral_iff {cs : List Char} :
    isPositiveNumeral cs = true ↔ ∃ n, 0 < n ∧ Nat.toDigits 10 n = cs := by
  constructor
  · intro h
    cases cs with
    | nil => cases h
    | cons c cs =>
      obtain ⟨hzero, hdigits⟩ := isPositiveNumeral_cons.1 h
      obtain ⟨hlt, hc⟩ := digitChar_value (hdigits c List.mem_cons_self)
      have hpos : 0 < c.toNat - 48 := by
        refine Nat.pos_of_ne_zero fun h0 => hzero ?_
        rw [← hc, h0]
        rfl
      obtain ⟨m, hm, htext⟩ :=
        toDigits_append_digits (fun d hd => hdigits d (List.mem_cons_of_mem c hd)) hpos
      refine ⟨m, hm, ?_⟩
      rw [← htext, Nat.toDigits_of_lt_base hlt, hc]
      rfl
  · rintro ⟨n, hn, rfl⟩
    have hdigits : ∀ d ∈ Nat.toDigits 10 n, d.isDigit = true := fun d hd =>
      Nat.isDigit_of_mem_toDigits (by decide) (by decide) hd
    have hhead := Decimal.head?_toDigits (Nat.ne_zero_of_lt hn)
    cases hd : Nat.toDigits 10 n with
    | nil => exact absurd hd Nat.toDigits_ne_nil
    | cons c cs =>
      rw [hd] at hdigits hhead
      exact isPositiveNumeral_cons.2 ⟨fun hc => hhead (congrArg some hc), hdigits⟩

theorem isIntegerNumeral_of_isPositiveNumeral {cs : List Char} (h : isPositiveNumeral cs = true) :
    isIntegerNumeral cs = true := by
  unfold isIntegerNumeral
  split
  · rfl
  · cases h
  · exact h

/-- **The texts that denote an integer are the decimal forms of the integers**, of any size. -/
theorem denotesInteger_iff {s : String} :
    denotesInteger s = true ↔ ∃ i : Int, toString i = s := by
  constructor
  · intro h
    unfold denotesInteger isIntegerNumeral at h
    split at h
    · rename_i hzero
      exact ⟨0, String.toList_inj.1 hzero.symm⟩
    · rename_i digits hminus
      obtain ⟨n, hn, hdigits⟩ := isPositiveNumeral_iff.1 h
      obtain ⟨n, rfl⟩ := Nat.exists_eq_succ_of_ne_zero (Nat.ne_zero_of_lt hn)
      refine ⟨Int.negSucc n, String.toList_inj.1 ?_⟩
      rw [Decimal.toList_negSucc, hdigits, hminus]
    · obtain ⟨n, -, hdigits⟩ := isPositiveNumeral_iff.1 h
      exact ⟨Int.ofNat n, String.toList_inj.1 ((Decimal.toList_ofNat n).trans hdigits)⟩
  · rintro ⟨i, rfl⟩
    have hpositive : ∀ n, isPositiveNumeral (Nat.toDigits 10 (n + 1)) = true := fun n =>
      isPositiveNumeral_iff.2 ⟨n + 1, n.succ_pos, rfl⟩
    unfold denotesInteger
    cases i with
    | ofNat n =>
      rw [Decimal.toList_ofNat]
      cases n with
      | zero => rfl
      | succ n => exact isIntegerNumeral_of_isPositiveNumeral (hpositive n)
    | negSucc n =>
      rw [Decimal.toList_negSucc]
      exact hpositive n

theorem denotesInteger_toString (i : Int) : denotesInteger (toString i) = true :=
  denotesInteger_iff.2 ⟨i, rfl⟩

/-! ## What is written for a text by its shape -/

/-- What is written for a text by its shape: the text itself if it denotes an integer, and a literal
otherwise. -/
def token (s : String) : String := if denotesInteger s then s else quote s

theorem token_toString (i : Int) : token (toString i) = toString i :=
  if_pos (denotesInteger_toString i)

/-- No literal of a text is taken for an integer. -/
theorem denotesInteger_quote (s : String) : denotesInteger (quote s) = false := by
  rw [denotesInteger, toList_quote]
  rfl

theorem token_injective : Function.Injective token := by
  intro s t h
  unfold token at h
  split at h <;> split at h
  · exact h
  · rename_i hs _
    rw [h, denotesInteger_quote] at hs
    cases hs
  · rename_i _ ht
    rw [← h, denotesInteger_quote] at ht
    cases ht
  · exact quote_injective h

end Text

namespace Value

theorem assign_text (key s : String) :
    Value.assign key (.text s) = [.line (assigned key (Text.token s))] := by
  rw [Value.assign, Text.token]
  split <;> rfl

theorem assign_integer (key : String) (i : Int64) :
    Value.assign key (.integer i) = [.line (assigned key (toString i.toInt))] := rfl

end Value

/-- **An integer is written without quotes, and so is the text of its decimal form; no other text
is.**  Whatever their size, the integers are told from all other texts, and what is written for a
text tells the text. -/
theorem Text.numerals_exact :
    (∀ s, Text.denotesInteger s = true ↔ ∃ i : Int, toString i = s) ∧
      (∀ (i : Int64) (key : String) (d : Draft),
        Script.run (Value.assign key (.integer i)) d =
          Script.run (Value.assign key (.text (toString i.toInt))) d) ∧
      (∀ (s key : String) (d : Draft),
        Script.run (Value.assign key (.text s)) d =
          .ofBreach (d.line (assigned key (Text.token s)))) ∧
      (∀ s, if Text.denotesInteger s then Text.token s = s
        else Text.IsLiteral Reading.decodeText s (Text.token s)) ∧
      Function.Injective Text.token := by
  refine ⟨fun s => Text.denotesInteger_iff, fun i key d => ?_, fun s key d => ?_, fun s => ?_,
    Text.token_injective⟩
  · rw [Value.assign_text, Text.token_toString, Value.assign_integer]
  · rw [Value.assign_text, Script.run, Action.run]
    exact Outcome.andThen_done _
  · unfold Text.token
    split
    · rfl
    · exact Text.isLiteral_quote s

/-! ## Integers of a JSON text -/

theorem Reading.ofText_numeral (i : Int) :
    ofText (toString i) =
      (((Literal.ofInt i).value?.map .number).getD .meaningless, true) := by
  have hends : Decimal.Ends [] := by simp [Decimal.Ends]
  have hread := read_numeral (2 * (toString i).toList.length + 1) i hends
  rw [List.append_nil] at hread
  rw [ofText, enough, hread]
  rfl

namespace Value

/-- An integer in range is the number that its decimal form is read as. -/
theorem parse_numeral {i : Int} (exact : IsExact i) :
    parse Value.decode (toString i) = .ok (ofNumber (.integer i exact)) := by
  rw [parse, Reading.ofText_numeral, Decimal.value?_ofInt, dif_pos exact]
  rfl

/-- The decimal form of an integer out of range is refused, or read as a double. -/
theorem parse_numeral_of_not_exact {i : Int} (h : ¬IsExact i) :
    parse Value.decode (toString i) = .error .malformed ∨
      ∃ x, parse Value.decode (toString i) = .ok (.double x) := by
  rw [parse, Reading.ofText_numeral, Decimal.value?_ofInt, dif_neg h]
  cases (Literal.ofInt i).toFloat? with
  | none => exact .inl rfl
  | some x => exact .inr ⟨x, rfl⟩

/-- An integer that is read is written as it was. -/
theorem assign_ofNumber (key : String) {i : Int} (exact : IsExact i) :
    (ofNumber (.integer i exact)).assign key = [.line (assigned key (toString i))] := by
  rw [ofNumber]
  split
  · rename_i h
    rw [assign_integer, Int64.toInt_ofInt_of_le exact.1 h]
  · rw [assign_text, Text.token_toString]

/-- **An integer of a JSON text is written as it stands in the text, digit for digit, if it lies
between `-2 ^ 63` and `2 ^ 64 - 1`.**  From larger ones no line comes: if they can be read at all,
they are read as doubles, which are refused. -/
theorem run_numeral (numeral : String) (h : Text.denotesInteger numeral = true) :
    ∃ i : Int, toString i = numeral ∧
      (IsExact i → ∃ v, parse Value.decode numeral = .ok v ∧
        ∀ (key : String) (d : Draft), d.Aligned →
          Script.run (v.assign key) d = .done (d.add [.line (assigned key numeral)])) ∧
      (¬IsExact i → parse Value.decode numeral = .error .malformed ∨
        ∃ x, parse Value.decode numeral = .ok (.double x) ∧
          ∀ (key : String) (d : Draft),
            Script.run (Value.assign key (.double x)) d =
              .failed d (.unsupportedKind key .double)) := by
  obtain ⟨i, rfl⟩ := Text.denotesInteger_iff.1 h
  refine ⟨i, rfl, fun exact => ?_, fun hi => ?_⟩
  · refine ⟨_, parse_numeral exact, fun key d hd => ?_⟩
    rw [assign_ofNumber, Script.run, Action.run, Draft.line_eq_add hd]
    rfl
  · rcases parse_numeral_of_not_exact hi with hparse | ⟨x, hparse⟩
    · exact .inl hparse
    · exact .inr ⟨x, hparse, fun _ _ => rfl⟩

theorem run_numeral_greatest :
    Text.denotesInteger "18446744073709551615" = true ∧
      ∃ v, parse Value.decode "18446744073709551615" = .ok v ∧
        ∀ (key : String) (d : Draft), d.Aligned →
          Script.run (v.assign key) d =
            .done (d.add [.line (assigned key "18446744073709551615")]) := by
  have hcanonical : Text.denotesInteger "18446744073709551615" = true := by decide
  obtain ⟨i, hi, hexact, -⟩ := run_numeral "18446744073709551615" hcanonical
  have hvalue : i = 18446744073709551615 := Int.repr_injective (hi.trans (by decide))
  exact ⟨hcanonical, hexact (hvalue ▸ by decide)⟩

/-- The next integer is refused, if it can be read at all. -/
theorem numeral_out_of_range_refused :
    Text.denotesInteger "18446744073709551616" = true ∧
      ∀ v, parse Value.decode "18446744073709551616" = .ok v →
        ∀ (key : String) (d : Draft),
          Script.run (v.assign key) d = .failed d (.unsupportedKind key .double) := by
  have hrange : ¬IsExact 18446744073709551616 := by decide
  have hnumeral : toString (18446744073709551616 : Int) = "18446744073709551616" := by decide
  refine ⟨by decide, fun v hv key d => ?_⟩
  rw [← hnumeral] at hv
  rcases parse_numeral_of_not_exact hrange with hparse | ⟨x, hparse⟩
  · cases hparse.symm.trans hv
  · cases hparse.symm.trans hv
    rfl

end Value

end JobFile
