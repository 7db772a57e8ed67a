import JobFile.Json.Reading
import JobFile.Text.QuotedRoundtrip
import Mathlib.Data.List.TakeDrop

/-!
# Printed values are read back

* `Json.Plain`             : no number of a value is a double, and its containers are not nested
  deeper than a given depth;
* `Reading.read_numeral`   : a printed integer is read as the number that it denotes, whatever its
  size;
* `Reading.read_int`       : one in range is read as this integer;
* `Reading.read_text`      : a printed value is read as this value, whatever follows it;
* `Reading.ofText_text`    : so is a text that holds nothing else;
* `Json.limit_reading`     : a value that is not nested too deeply is not cut off.

Doubles are left out: reading one back can miss its last place.
-/

namespace JobFile

open Decimal (Number Literal)

/-! ## Plain values -/

namespace Json

mutual
/-- Is no number of a value a double, and are at most this many containers nested? -/
def Plain : Nat → Json → Prop
  | _, .null | _, .bool _ | _, .string _ | _, .number (.integer _ _) => True
  | _, .number (.double _) => False
  | 0, .array _ | 0, .object _ => False
  | depth + 1, .array items => AllPlain depth items
  | depth + 1, .object members => MembersPlain depth members
/-- Is each of several values plain? -/
def AllPlain : Nat → List Json → Prop
  | _, [] => True
  | depth, v :: vs => v.Plain depth ∧ AllPlain depth vs
/-- Is the value of each member plain? -/
def MembersPlain : Nat → List (String × Json) → Prop
  | _, [] => True
  | depth, (_, v) :: ms => v.Plain depth ∧ MembersPlain depth ms
end

theorem allPlain_iff {depth : Nat} {vs : List Json} :
    AllPlain depth vs ↔ ∀ v ∈ vs, v.Plain depth := by
  induction vs with
  | nil => simp [AllPlain]
  | cons v vs ih => simp [AllPlain, ih]

theorem membersPlain_iff {depth : Nat} {ms : List (String × Json)} :
    MembersPlain depth ms ↔ ∀ m ∈ ms, m.2.Plain depth := by
  induction ms with
  | nil => simp [MembersPlain]
  | cons m ms ih =>
    obtain ⟨k, v⟩ := m
    simp [MembersPlain, ih]

theorem plain_ofTexts (depth : Nat) (items : List String) : (ofTexts items).Plain (depth + 1) := by
  refine allPlain_iff.2 fun v hv => ?_
  obtain ⟨s, -, rfl⟩ := List.mem_map.1 hv
  simp [Plain]

end Json

/-! ## Integers -/

namespace Decimal

theorem ofDigits_toDigits (n : Nat) : ofDigits (Nat.toDigits 10 n) = n := by
  have h := Nat.ofDigitChars_toDigits (b := 10) (n := n) (by decide) (by decide)
  rw [Nat.ofDigitChars_eq_foldl] at h
  exact h

/-- The digits of a positive number do not begin with a zero. -/
theorem head?_toDigits {n : Nat} (h : n ≠ 0) : (Nat.toDigits 10 n).head? ≠ some '0' := by
  induction n using Nat.strongRecOn with
  | ind n ih =>
    by_cases hn : n < 10
    · rw [Nat.toDigits_of_lt_base hn]
      simpa [Nat.digitChar_eq_zero] using h
    · rw [Nat.toDigits_of_base_le (by decide) (by omega)]
      have hhead := ih (n / 10) (by omega) (by omega)
      cases hd : Nat.toDigits 10 (n / 10) with
      | nil => exact absurd hd Nat.toDigits_ne_nil
      | cons c cs =>
        rw [hd] at hhead
        simpa using hhead

/-- What may follow a number: neither a digit, nor a point, nor an exponent. -/
def Ends (rest : List Char) : Prop :=
  ∀ c ∈ rest.head?, c.isDigit = false ∧ c ≠ '.' ∧ c ≠ 'e' ∧ c ≠ 'E'

theorem spanDigits_append {ds rest : List Char} (hd : ∀ c ∈ ds, c.isDigit = true)
    (hr : Ends rest) : spanDigits (ds ++ rest) = (ds, rest) := by
  have hrest : rest.takeWhile Char.isDigit = [] ∧ rest.dropWhile Char.isDigit = rest := by
    cases rest with
    | nil => exact ⟨rfl, rfl⟩
    | cons c cs => simp [(hr c rfl).1]
  rw [spanDigits, List.span_eq_takeWhile_dropWhile, List.takeWhile_append_of_pos hd,
    List.dropWhile_append_of_pos hd, hrest.1, hrest.2, List.append_nil]

theorem scanWhole?_toDigits (n : Nat) {rest : List Char} (hr : Ends rest) :
    scanWhole? (Nat.toDigits 10 n ++ rest) = some (Nat.toDigits 10 n, rest) := by
  have hdigits : ∀ c ∈ Nat.toDigits 10 n, c.isDigit = true := fun c hc =>
    Nat.isDigit_of_mem_toDigits (by decide) (by decide) hc
  rw [scanWhole?, spanDigits_append hdigits hr]
  split
  · rename_i heq
    exact absurd (Prod.mk.inj heq).1 Nat.toDigits_ne_nil
  · rename_i c cs _ heq
    have hzero := (Prod.mk.inj heq).1
    by_cases hn : n = 0
    · rw [hn, Nat.toDigits_zero] at hzero
      cases hzero
    · exact absurd (by rw [hzero]; rfl) (head?_toDigits hn)
  · rename_i heq
    rw [heq]

theorem scanUnsigned?_toDigits (negative : Bool) (n : Nat) {rest : List Char} (hr : Ends rest) :
    scanUnsigned? negative (Nat.toDigits 10 n ++ rest) =
      some (⟨negative, Nat.toDigits 10 n, none, none⟩, rest) := by
  have hfraction : scanFraction? rest = some (none, rest) := by
    unfold scanFraction?
    split
    · exact absurd rfl (hr '.' rfl).2.1
    · rfl
  have hexponent : scanExponent? rest = some (none, rest) := by
    unfold scanExponent?
    split
    all_goals first
      | rfl
      | exact absurd rfl (hr 'e' rfl).2.2.1
      | exact absurd rfl (hr 'E' rfl).2.2.2
  simp [scanUnsigned?, scanWhole?_toDigits n hr, hfraction, hexponent]

theorem toList_ofNat (n : Nat) : (toString (Int.ofNat n)).toList = Nat.toDigits 10 n :=
  Nat.toList_repr

theorem toList_negSucc (n : Nat) :
    (toString (Int.negSucc n)).toList = '-' :: Nat.toDigits 10 (n + 1) := by
  show (Int.repr (Int.negSucc n)).toList = _
  simp [Int.repr]

/-- The parts of a printed integer. -/
def Literal.ofInt : Int → Literal
  | .ofNat n => ⟨false, Nat.toDigits 10 n, none, none⟩
  | .negSucc n => ⟨true, Nat.toDigits 10 (n + 1), none, none⟩

/-- A printed integer is scanned up to its end. -/
theorem scan?_toString (i : Int) {rest : List Char} (hr : Ends rest) :
    Literal.scan? ((toString i).toList ++ rest) = some (.ofInt i, rest) := by
  cases i with
  | ofNat n =>
    have hscan := scanUnsigned?_toDigits false n hr
    rw [toList_ofNat, Literal.scan?]
    · exact hscan
    · intro cs heq
      have hhead : '-' ∈ Nat.toDigits 10 n := by
        cases hd : Nat.toDigits 10 n with
        | nil => exact absurd hd Nat.toDigits_ne_nil
        | cons c ds =>
          rw [hd] at heq
          simp_all
      exact absurd (Nat.isDigit_of_mem_toDigits (by decide) (by decide) hhead) (by decide)
  | negSucc n =>
    rw [toList_negSucc, List.cons_append, Literal.scan?]
    exact scanUnsigned?_toDigits true (n + 1) hr

/-- The parts of an integer denote it if it is in range, and a double or nothing if it is not. -/
theorem value?_ofInt (i : Int) :
    (Literal.ofInt i).value? =
      if h : IsExact i then some (.integer i h) else (Literal.ofInt i).toFloat?.map .double := by
  cases i with
  | ofNat n => simp [Literal.value?, Literal.ofInt, ofDigits_toDigits]
  | negSucc n =>
    have hneg : -((n + 1 : Nat) : Int) = Int.negSucc n := rfl
    simp only [Literal.value?, Literal.ofInt, ofDigits_toDigits, if_true, hneg]
    simp

end Decimal

/-! ## Printed text -/

namespace Json

/-- What is printed behind the first item of an array. -/
def moreItems : List Json → List Char
  | [] => [']']
  | v :: vs => ',' :: (v.text.toList ++ moreItems vs)

/-- What is printed for a member of an object, and behind it. -/
def fromMember (k : String) (v : Json) (after : List Char) : List Char :=
  (Text.quote k).toList ++ ':' :: (v.text.toList ++ after)

theorem fromMember_eq (k : String) (v : Json) (after : List Char) :
    fromMember k v after =
      '"' :: (Text.encode k.toList ++ '"' :: ':' :: (v.text.toList ++ after)) := by
  simp [fromMember]

theorem fromMember_append (k : String) (v : Json) (after rest : List Char) :
    fromMember k v after ++ rest = fromMember k v (after ++ rest) := by
  simp [fromMember]

theorem length_fromMember (k : String) (v : Json) (after : List Char) :
    (fromMember k v after).length =
      (Text.encode k.toList).length + v.text.toList.length + after.length + 3 := by
  simp [fromMember_eq]
  omega

/-- What is printed behind the first member of an object. -/
def moreMembers : List (String × Json) → List Char
  | [] => ['\x7d']
  | (k, v) :: ms => ',' :: fromMember k v (moreMembers ms)

/-- What is printed behind the opening bracket of an array. -/
def itemsText : List Json → List Char
  | [] => [']']
  | v :: vs => v.text.toList ++ moreItems vs

/-- What is printed behind the opening brace of an object. -/
def membersText : List (String × Json) → List Char
  | [] => ['\x7d']
  | (k, v) :: ms => fromMember k v (moreMembers ms)

theorem toList_array (vs : List Json) : (text (.array vs)).toList = '[' :: itemsText vs := by
  have h : (String.intercalate "," (texts vs)).toList ++ [']'] = itemsText vs := by
    cases vs with
    | nil => simp [texts, itemsText]
    | cons v vs =>
      induction vs generalizing v with
      | nil => simp [texts, itemsText, moreItems]
      | cons w ws ih =>
        have hw := ih w
        simp only [texts, itemsText, moreItems, String.toList_intercalate, List.map_cons,
          List.intercalate_cons_cons, List.append_assoc] at hw ⊢
        rw [hw]
        rfl
  simp [text, ← h]

theorem toList_object (ms : List (String × Json)) :
    (text (.object ms)).toList = '\x7b' :: membersText ms := by
  have h : (String.intercalate "," (memberTexts ms)).toList ++ ['\x7d'] = membersText ms := by
    rcases ms with _ | ⟨⟨k, v⟩, ms⟩
    · simp [memberTexts, membersText]
    · induction ms generalizing k v with
      | nil => simp [memberTexts, membersText, moreMembers, fromMember]
      | cons m ms ih =>
        obtain ⟨k', v'⟩ := m
        have hm := ih k' v'
        simp only [memberTexts, membersText, moreMembers, String.toList_intercalate,
          List.map_cons, List.intercalate_cons_cons, List.append_assoc] at hm ⊢
        rw [hm]
        simp [fromMember]
  simp [text, ← h]

end Json

namespace Reading

/-! ## Tokens -/

theorem skipSpace_cons {c : Char} (h : isSpace c = false) (cs : List Char) :
    skipSpace (c :: cs) = c :: cs := by
  simp [skipSpace, h]

theorem afterWord?_append (word : String) (rest : List Char) :
    afterWord? word (word.toList ++ rest) = some rest := by
  unfold afterWord?
  induction word.toList with
  | nil => rfl
  | cons c cs ih =>
    show (if c == c then cs.isPrefixOf? (cs ++ rest) else none) = some rest
    rw [if_pos (BEq.refl c)]
    exact ih

theorem meaning?_map_char (s : String) : meaning? (s.toList.map .char) = some s := by
  simp [meaning?, Text.assemble_map_char]

theorem read_string (fuel : Nat) (s : String) (rest : List Char) :
    read (fuel + 1) ((Text.quote s).toList ++ rest) = (.string s, rest) := by
  rw [Text.toList_quote, List.cons_append, read, skipSpace_cons (by decide)]
  simp [Text.scan_encode, meaning?_map_char]

/-- The characters that begin a number. -/
def BeginsNumber (c : Char) : Prop := c.isDigit = true ∨ c = '-'

instance (c : Char) : Decidable (BeginsNumber c) := inferInstanceAs (Decidable (_ ∨ _))

theorem isSpace_of_beginsNumber {c : Char} (h : BeginsNumber c) : isSpace c = false := by
  have hno : ∀ x ∈ [' ', '\t', '\r', '\n'], ¬BeginsNumber x := by simp [BeginsNumber]
  rw [Bool.eq_false_iff]
  intro hc
  exact hno c (by simpa [isSpace, or_assoc] using hc) h

/-- A text that begins like a number is read as one. -/
theorem read_eq_readNumber (fuel : Nat) {c : Char} (h : BeginsNumber c) (cs : List Char) :
    read (fuel + 1) (c :: cs) = readNumber (c :: cs) := by
  have hno : ∀ x ∈ ['"', '[', '\x7b', 'n', 't', 'f'], ¬BeginsNumber x := by simp [BeginsNumber]
  rw [read, skipSpace_cons (isSpace_of_beginsNumber h)]
  split
  case h_7 => rfl
  all_goals
    rename_i heq
    cases heq
    exact absurd h (hno _ (by decide))

/-- An integer is printed with a digit or a minus sign at its front. -/
theorem beginsNumber_toString (i : Int) :
    ∃ c cs, (toString i).toList = c :: cs ∧ BeginsNumber c := by
  cases i with
  | ofNat n =>
    cases hd : Nat.toDigits 10 n with
    | nil => exact absurd hd Nat.toDigits_ne_nil
    | cons c cs =>
      have hc : c ∈ Nat.toDigits 10 n := by simp [hd]
      have hdigit : c.isDigit = true := Nat.isDigit_of_mem_toDigits (by decide) (by decide) hc
      exact ⟨c, cs, (Decimal.toList_ofNat n).trans hd, .inl hdigit⟩
  | negSucc n => exact ⟨'-', _, Decimal.toList_negSucc n, .inr rfl⟩

/-- A printed integer is read as the number that it denotes, if there is one. -/
theorem read_numeral (fuel : Nat) (i : Int) {rest : List Char} (hr : Decimal.Ends rest) :
    read (fuel + 1) ((toString i).toList ++ rest) =
      (((Literal.ofInt i).value?.map .number).getD .meaningless, rest) := by
  have hscan := Decimal.scan?_toString i hr
  obtain ⟨c, cs, htext, hc⟩ := beginsNumber_toString i
  rw [htext, List.cons_append] at hscan ⊢
  rw [read_eq_readNumber fuel hc]
  simp only [readNumber, hscan]

theorem read_int (fuel : Nat) (i : Int) (exact : Decimal.IsExact i) {rest : List Char}
    (hr : Decimal.Ends rest) :
    read (fuel + 1) ((toString i).toList ++ rest) = (.number (.integer i exact), rest) := by
  rw [read_numeral fuel i hr, Decimal.value?_ofInt, dif_pos exact]
  rfl

/-! ## Containers -/

/-- The first character of a printed value is neither a space nor a closing bracket. -/
theorem text_begins {depth : Nat} {v : Json} (h : v.Plain depth) :
    ∃ c cs, v.text.toList = c :: cs ∧ isSpace c = false ∧ c ≠ ']' := by
  cases v with
  | null => exact ⟨'n', _, rfl, by decide, by decide⟩
  | bool b => cases b <;> exact ⟨_, _, rfl, by decide, by decide⟩
  | number n =>
    cases n with
    | integer i exact =>
      obtain ⟨c, cs, htext, hc⟩ := beginsNumber_toString i
      refine ⟨c, cs, htext, isSpace_of_beginsNumber hc, ?_⟩
      rintro rfl
      exact absurd hc (by decide)
    | double x => exact absurd h (by simp [Json.Plain])
  | string s => exact ⟨'"', _, Text.toList_quote s, by decide, by decide⟩
  | array items => exact ⟨'[', _, Json.toList_array items, by decide, by decide⟩
  | object members => exact ⟨'\x7b', _, Json.toList_object members, by decide, by decide⟩

theorem readItems_text {depth : Nat} {v : Json} (h : v.Plain depth) (fuel : Nat)
    (rest : List Char) :
    readItems (fuel + 1) (v.text.toList ++ rest) =
      let (head, after) := read fuel (v.text.toList ++ rest)
      let (tail, after) := readMoreItems fuel after
      (.item head tail, after) := by
  obtain ⟨c, cs, htext, hspace, hclose⟩ := text_begins h
  rw [htext, List.cons_append, readItems, skipSpace_cons hspace]
  simp [hclose]

theorem readMoreItems_text {depth : Nat} {v : Json} (h : v.Plain depth) (fuel : Nat)
    (rest : List Char) :
    readMoreItems (fuel + 1) (',' :: (v.text.toList ++ rest)) =
      let (head, after) := read fuel (v.text.toList ++ rest)
      let (tail, after) := readMoreItems fuel after
      (.item head tail, after) := by
  obtain ⟨c, cs, htext, hspace, hclose⟩ := text_begins h
  have hcomma : isSpace ',' = false := by decide
  rw [htext, List.cons_append]
  simp [readMoreItems, skipSpace_cons hcomma, skipSpace_cons hspace, hclose]

theorem readMember_text (fuel : Nat) (k : String) (v : Json) (after : List Char) :
    readMember (fuel + 1) (Text.encode k.toList ++ '"' :: ':' :: (v.text.toList ++ after)) =
      let (value, after) := read fuel (v.text.toList ++ after)
      let (tail, after) := readMoreMembers fuel after
      (.member (some k) value tail, after) := by
  have hcolon : isSpace ':' = false := by decide
  simp [readMember, Text.scan_encode, skipSpace_cons hcolon, meaning?_map_char]

/-- What stands behind an item ends a number before it. -/
theorem ends_moreItems (vs : List Json) (rest : List Char) :
    Decimal.Ends (Json.moreItems vs ++ rest) := by
  cases vs <;> simp [Json.moreItems, Decimal.Ends]

/-- What stands behind a member ends a number before it. -/
theorem ends_moreMembers (ms : List (String × Json)) (rest : List Char) :
    Decimal.Ends (Json.moreMembers ms ++ rest) := by
  rcases ms with _ | ⟨⟨k, v⟩, ms⟩ <;> simp [Json.moreMembers, Decimal.Ends]

theorem readWord_append (word : String) (value : Reading) (rest : List Char) :
    readWord word value (word.toList ++ rest) = (value, rest) := by
  simp only [readWord, afterWord?_append]

theorem read_null (fuel : Nat) (rest : List Char) :
    read (fuel + 1) ((Json.text .null).toList ++ rest) = (.null, rest) := by
  show read (fuel + 1) ('n' :: ("ull".toList ++ rest)) = _
  rw [read, skipSpace_cons (by decide)]
  exact readWord_append "ull" .null rest

theorem read_bool (fuel : Nat) (b : Bool) (rest : List Char) :
    read (fuel + 1) ((Json.text (.bool b)).toList ++ rest) = (.bool b, rest) := by
  cases b with
  | true =>
    show read (fuel + 1) ('t' :: ("rue".toList ++ rest)) = _
    rw [read, skipSpace_cons (by decide)]
    exact readWord_append "rue" (.bool true) rest
  | false =>
    show read (fuel + 1) ('f' :: ("alse".toList ++ rest)) = _
    rw [read, skipSpace_cons (by decide)]
    exact readWord_append "alse" (.bool false) rest

/-- A value of which the text is to be read leaves something to read. -/
theorem exists_fuel {depth fuel : Nat} {v : Json} (h : v.Plain depth)
    (hf : 2 * v.text.toList.length ≤ fuel) : ∃ k, fuel = k + 1 := by
  obtain ⟨c, cs, htext, -⟩ := text_begins h
  rw [htext, List.length_cons] at hf
  exact ⟨fuel - 1, by omega⟩

mutual
/-- **A printed value is read as this value**, whatever follows it. -/
theorem read_text : ∀ (v : Json) (depth fuel : Nat) (rest : List Char), v.Plain depth →
    2 * v.text.toList.length ≤ fuel → Decimal.Ends rest →
    read fuel (v.text.toList ++ rest) = (v.reading, rest)
  | .null => by
    intro depth fuel rest h hf _
    obtain ⟨fuel, rfl⟩ := exists_fuel h hf
    exact read_null fuel rest
  | .bool b => by
    intro depth fuel rest h hf _
    obtain ⟨fuel, rfl⟩ := exists_fuel h hf
    exact read_bool fuel b rest
  | .number n => by
    intro depth fuel rest h hf hr
    obtain ⟨fuel, rfl⟩ := exists_fuel h hf
    cases n with
    | integer i exact => exact read_int fuel i exact hr
    | double x => exact absurd h (by simp [Json.Plain])
  | .string s => by
    intro depth fuel rest h hf _
    obtain ⟨fuel, rfl⟩ := exists_fuel h hf
    exact read_string fuel s rest
  | .array vs => by
    intro depth fuel rest h hf _
    obtain ⟨fuel, rfl⟩ := exists_fuel h hf
    rw [Json.toList_array, List.length_cons] at hf
    cases depth with
    | zero => exact h.elim
    | succ depth =>
      have hvs := readItems_items vs depth fuel rest h (by omega)
      have hspace : isSpace '[' = false := by decide
      rw [Json.toList_array, List.cons_append]
      simp [read, skipSpace_cons hspace, hvs, Json.reading]
  | .object ms => by
    intro depth fuel rest h hf _
    obtain ⟨fuel, rfl⟩ := exists_fuel h hf
    rw [Json.toList_object, List.length_cons] at hf
    cases depth with
    | zero => exact h.elim
    | succ depth =>
      have hms := readMembers_members ms depth fuel rest h (by omega)
      have hspace : isSpace '\x7b' = false := by decide
      rw [Json.toList_object, List.cons_append]
      simp [read, skipSpace_cons hspace, hms, Json.reading]
/-- Printed items are read up to the end of their array. -/
theorem readItems_items : ∀ (vs : List Json) (depth fuel : Nat) (rest : List Char),
    Json.AllPlain depth vs → 2 * (Json.itemsText vs).length < fuel →
    readItems fuel (Json.itemsText vs ++ rest) = (Json.itemsReading vs, rest)
  | [] => by
    intro depth fuel rest _ hf
    obtain ⟨fuel, rfl⟩ := Nat.exists_eq_succ_of_ne_zero (Nat.ne_zero_of_lt hf)
    have hspace : isSpace ']' = false := by decide
    simp [Json.itemsText, readItems, skipSpace_cons hspace, Json.itemsReading]
  | v :: vs => by
    intro depth fuel rest h hf
    obtain ⟨fuel, rfl⟩ := Nat.exists_eq_succ_of_ne_zero (Nat.ne_zero_of_lt hf)
    simp only [Json.itemsText, List.length_append] at hf
    have hv := read_text v depth fuel (Json.moreItems vs ++ rest) h.1 (by omega)
      (ends_moreItems vs rest)
    have hvs := readMoreItems_items vs depth fuel rest h.2 (by omega)
    rw [Json.itemsText, List.append_assoc, readItems_text h.1, hv]
    simp [hvs, Json.itemsReading]
/-- Printed items are read up to the end of their array, after one of them. -/
theorem readMoreItems_items : ∀ (vs : List Json) (depth fuel : Nat) (rest : List Char),
    Json.AllPlain depth vs → 2 * (Json.moreItems vs).length ≤ fuel →
    readMoreItems fuel (Json.moreItems vs ++ rest) = (Json.itemsReading vs, rest)
  | [] => by
    intro depth fuel rest _ hf
    simp only [Json.moreItems, List.length_singleton] at hf
    obtain ⟨fuel, rfl⟩ : ∃ k, fuel = k + 1 := ⟨fuel - 1, by omega⟩
    have hspace : isSpace ']' = false := by decide
    simp [Json.moreItems, readMoreItems, skipSpace_cons hspace, Json.itemsReading]
  | v :: vs => by
    intro depth fuel rest h hf
    simp only [Json.moreItems, List.length_cons, List.length_append] at hf
    obtain ⟨fuel, rfl⟩ : ∃ k, fuel = k + 1 := ⟨fuel - 1, by omega⟩
    have hv := read_text v depth fuel (Json.moreItems vs ++ rest) h.1 (by omega)
      (ends_moreItems vs rest)
    have hvs := readMoreItems_items vs depth fuel rest h.2 (by omega)
    rw [Json.moreItems, List.cons_append, List.append_assoc, readMoreItems_text h.1, hv]
    simp [hvs, Json.itemsReading]
/-- Printed members are read up to the end of their object. -/
theorem readMembers_members : ∀ (ms : List (String × Json)) (depth fuel : Nat)
    (rest : List Char), Json.MembersPlain depth ms → 2 * (Json.membersText ms).length < fuel →
    readMembers fuel (Json.membersText ms ++ rest) = (Json.membersReading ms, rest)
  | [] => by
    intro depth fuel rest _ hf
    obtain ⟨fuel, rfl⟩ := Nat.exists_eq_succ_of_ne_zero (Nat.ne_zero_of_lt hf)
    have hspace : isSpace '\x7d' = false := by decide
    simp [Json.membersText, readMembers, skipSpace_cons hspace, Json.membersReading]
  | (k, v) :: ms => by
    intro depth fuel rest h hf
    simp only [Json.membersText, Json.length_fromMember] at hf
    obtain ⟨fuel, rfl⟩ : ∃ k, fuel = k + 2 := ⟨fuel - 2, by omega⟩
    have hv := read_text v depth fuel (Json.moreMembers ms ++ rest) h.1 (by omega)
      (ends_moreMembers ms rest)
    have hms := readMoreMembers_members ms depth fuel rest h.2 (by omega)
    have hspace : isSpace '"' = false := by decide
    rw [Json.membersText, Json.fromMember_append, Json.fromMember_eq, readMembers,
      skipSpace_cons hspace]
    simp [readMember_text, hv, hms, Json.membersReading]
/-- Printed members are read up to the end of their object, after one of them. -/
theorem readMoreMembers_members : ∀ (ms : List (String × Json)) (depth fuel : Nat)
    (rest : List Char), Json.MembersPlain depth ms → 2 * (Json.moreMembers ms).length ≤ fuel →
    readMoreMembers fuel (Json.moreMembers ms ++ rest) = (Json.membersReading ms, rest)
  | [] => by
    intro depth fuel rest _ hf
    simp only [Json.moreMembers, List.length_singleton] at hf
    obtain ⟨fuel, rfl⟩ : ∃ k, fuel = k + 1 := ⟨fuel - 1, by omega⟩
    have hspace : isSpace '\x7d' = false := by decide
    simp [Json.moreMembers, readMoreMembers, skipSpace_cons hspace, Json.membersReading]
  | (k, v) :: ms => by
    intro depth fuel rest h hf
    simp only [Json.moreMembers, List.length_cons, Json.length_fromMember] at hf
    obtain ⟨fuel, rfl⟩ : ∃ k, fuel = k + 2 := ⟨fuel - 2, by omega⟩
    have hv := read_text v depth fuel (Json.moreMembers ms ++ rest) h.1 (by omega)
      (ends_moreMembers ms rest)
    have hms := readMoreMembers_members ms depth fuel rest h.2 (by omega)
    have hcomma : isSpace ',' = false := by decide
    have hspace : isSpace '"' = false := by decide
    rw [Json.moreMembers, List.cons_append, Json.fromMember_append, Json.fromMember_eq,
      readMoreMembers, skipSpace_cons hcomma]
    simp [skipSpace_cons hspace, readMember_text, hv, hms, Json.membersReading]
end

/-- A text that holds a printed value and nothing else is read as this value. -/
theorem ofText_text {depth : Nat} {v : Json} (h : v.Plain depth) :
    ofText v.text = (v.reading, true) := by
  have hends : Decimal.Ends [] := by simp [Decimal.Ends]
  have hread := read_text v depth (enough v.text.toList) [] h (by simp [enough]) hends
  rw [List.append_nil] at hread
  simp [ofText, hread, skipSpace]

end Reading

/-! ## Nesting -/

mutual
/-- A value that is not nested too deeply is not cut off. -/
theorem Json.limit_reading : ∀ (v : Json) (depth : Nat), v.Plain depth →
    v.reading.limit depth = v.reading
  | .null, depth, _ | .bool _, depth, _ | .string _, depth, _ | .number _, depth, _ => by
    cases depth <;> rfl
  | .array vs, depth + 1, h => by
    simp [Json.reading, Reading.limit, Json.limit_itemsReading vs depth h]
  | .object ms, depth + 1, h => by
    simp [Json.reading, Reading.limit, Json.limit_membersReading ms depth h]
  | .array _, 0, h | .object _, 0, h => h.elim
theorem Json.limit_itemsReading : ∀ (vs : List Json) (depth : Nat), Json.AllPlain depth vs →
    (Json.itemsReading vs).limit depth = Json.itemsReading vs
  | [], _, _ => by simp [Json.itemsReading, Items.limit]
  | v :: vs, depth, h => by
    simp [Json.itemsReading, Items.limit, Json.limit_reading v depth h.1,
      Json.limit_itemsReading vs depth h.2]
theorem Json.limit_membersReading : ∀ (ms : List (String × Json)) (depth : Nat),
    Json.MembersPlain depth ms →
    (Json.membersReading ms).limit depth = Json.membersReading ms
  | [], _, _ => by simp [Json.membersReading, Members.limit]
  | (k, v) :: ms, depth, h => by
    simp [Json.membersReading, Members.limit, Json.limit_reading v depth h.1,
      Json.limit_membersReading ms depth h.2]
end

end JobFile
