import JobFile.Record.Decode

/-!
# Records of JSON values

* `FailsOnly`               : a computation that fails only for reasons of one sort;
* `ReadError.IsMismatch`    : the data are wrong, not their form;
* `Kind.failsOnly_decode`   : so it is if a value of a kind cannot be read from a JSON value;
* `Form.failsOnly_fillAll`  : and if members do not fill in a form;
* `Record.failsOnly_decode` : and so if a record cannot be read from members.

A JSON value has been read already, so its form is right at any depth.
-/

namespace JobFile

/-! ## Reasons -/

/-- A computation that fails only for reasons of one sort. -/
def FailsOnly {ε α : Type} (P : ε → Prop) (x : Except ε α) : Prop := ∀ why, x = .error why → P why

section

variable {ε ε' α β : Type} {P Q : ε → Prop} {x : Except ε α}

theorem failsOnly_ok (a : α) : FailsOnly P (.ok a : Except ε α) := nofun

theorem failsOnly_error {why : ε} (h : P why) : FailsOnly P (.error why : Except ε α) := by
  rintro why' ⟨⟩
  exact h

theorem FailsOnly.bind {f : α → Except ε β} (h : FailsOnly P x) (hf : ∀ a, FailsOnly P (f a)) :
    FailsOnly P (x >>= f) := by
  cases x with
  | ok a => exact hf a
  | error why => exact failsOnly_error (h why rfl)

theorem FailsOnly.map {f : α → β} (h : FailsOnly P x) : FailsOnly P (x.map f) := by
  cases x with
  | ok a => exact failsOnly_ok (f a)
  | error why => exact failsOnly_error (h why rfl)

theorem FailsOnly.mapError {P' : ε' → Prop} {f : ε → ε'} (h : FailsOnly P x)
    (hf : ∀ why, P why → P' (f why)) : FailsOnly P' (x.mapError f) := by
  cases x with
  | ok a => exact failsOnly_ok a
  | error why => exact failsOnly_error (hf why (h why rfl))

theorem FailsOnly.mono (h : FailsOnly P x) (hPQ : ∀ why, P why → Q why) : FailsOnly Q x :=
  fun why hwhy => hPQ why (h why hwhy)

end

/-- The data are wrong, not their form. -/
def ReadError.IsMismatch : ReadError → Prop
  | .malformed => False
  | .mismatch _ => True

/-! ## Values -/

namespace Reading

/-- A JSON value of the wrong kind is a mismatch. -/
theorem isMismatch_refuse (wanted : Wanted) (j : Json) : (j.reading.refuse wanted).IsMismatch := by
  cases j with
  | number n => cases n <;> trivial
  | _ => trivial

theorem failsOnly_decodeText (j : Json) : FailsOnly ReadError.IsMismatch j.reading.decodeText := by
  cases j with
  | string s => exact failsOnly_ok s
  | _ => exact failsOnly_error (isMismatch_refuse .text _)

theorem failsOnly_decodeFlag (j : Json) : FailsOnly ReadError.IsMismatch j.reading.decodeFlag := by
  cases j with
  | bool b => exact failsOnly_ok b
  | _ => exact failsOnly_error (isMismatch_refuse .boolean _)

theorem failsOnly_decodeInteger (j : Json) :
    FailsOnly ReadError.IsMismatch j.reading.decodeInteger := by
  cases j with
  | number n =>
    cases n with
    | integer i exact =>
      rw [Json.reading, decodeInteger]
      split
      · exact failsOnly_ok _
      · exact failsOnly_error trivial
    | double x => exact failsOnly_error trivial
  | _ => exact failsOnly_error (isMismatch_refuse .integer _)

theorem failsOnly_decodeTextItems (js : List Json) :
    FailsOnly ReadError.IsMismatch (decodeTextItems (Json.itemsReading js)) := by
  induction js with
  | nil => exact failsOnly_ok []
  | cons j js ih => exact (failsOnly_decodeText j).bind fun _ => ih.bind fun _ => failsOnly_ok _

theorem failsOnly_decodeTextMembers (ms : Entries Json) (before : Entries String) :
    FailsOnly ReadError.IsMismatch (decodeTextMembers before (Json.membersReading ms)) := by
  induction ms generalizing before with
  | nil => exact failsOnly_ok before
  | cons m ms ih => exact (failsOnly_decodeText m.2).bind fun s => ih (before.put m.1 s)

end Reading

/-- What is wrong with a JSON value of the wrong kind are its data. -/
theorem Kind.failsOnly_decode (k : Kind) (j : Json) :
    FailsOnly ReadError.IsMismatch (k.decode j.reading) := by
  cases k with
  | text | document => exact Reading.failsOnly_decodeText j
  | integer => exact Reading.failsOnly_decodeInteger j
  | flag => exact Reading.failsOnly_decodeFlag j
  | texts =>
    cases j with
    | array js => exact Reading.failsOnly_decodeTextItems js
    | _ => exact failsOnly_error (Reading.isMismatch_refuse .sequence _)
  | textMap =>
    cases j with
    | object ms => exact Reading.failsOnly_decodeTextMembers ms []
    | _ => exact failsOnly_error (Reading.isMismatch_refuse .map _)

theorem Field.failsOnly_decode (f : Field) (j : Json) :
    FailsOnly ReadError.IsMismatch (f.decode j.reading) := by
  have hdecode := f.kind.failsOnly_decode j
  obtain ⟨name, kind, mandatory, required, fallback, choices⟩ := f
  cases mandatory with
  | true => exact hdecode
  | false =>
    cases j with
    | null => exact failsOnly_ok none
    | _ => exact hdecode.map

/-! ## Records -/

namespace Form

variable {fs : List Field}

theorem failsOnly_fill (known : List String) (key : String) (j : Json) (d : Form fs) :
    FailsOnly ReadError.IsMismatch (d.fill known key j.reading) := by
  induction d with
  | nil => exact failsOnly_error trivial
  | @cons f fs filled rest ih =>
    cases filled with
    | some slot =>
      simp only [fill]
      split
      · exact failsOnly_error trivial
      · exact ih.map
    | none =>
      simp only [fill]
      split
      · exact (f.failsOnly_decode j).map
      · exact ih.map

theorem failsOnly_finish (d : Form fs) : FailsOnly ReadError.IsMismatch d.finish := by
  induction d with
  | nil => exact failsOnly_ok Record.nil
  | cons filled rest ih =>
    rw [finish]
    split
    · exact ih.map
    · exact failsOnly_error trivial

theorem failsOnly_fillAll (known : List String) (ms : Entries Json) (d : Form fs) :
    FailsOnly ReadError.IsMismatch (d.fillAll known (Json.membersReading ms)) := by
  induction ms generalizing d with
  | nil => exact d.failsOnly_finish
  | cons m ms ih => exact (d.failsOnly_fill known m.1 m.2).bind ih

end Form

/-- **If a record cannot be read from members, the data are wrong and not their form.** -/
theorem Record.failsOnly_decode (name : String) (fs : List Field) (ms : Entries Json) :
    FailsOnly ReadError.IsMismatch (Record.decode name fs (Json.object ms).reading) :=
  Form.failsOnly_fillAll _ ms (Form.blank fs)

end JobFile
