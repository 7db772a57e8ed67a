import JobFile.Proofs.Description.Tree
import JobFile.Proofs.Reading.Shape

/-!
# Reading documents

* `Reader`          : the open blocks, what they hold so far, and a document that has not ended;
* `Reader.step`     : reads one line;
* `Reader.readFrom` : reads the lines of a text;
* `Reader.read`     : the entries of a whole text, if it is one;
* `Reader.readFrom_line`, `Reader.readFrom_document` : reading goes on behind what has been read.

Outside documents a line has to be indented by two spaces for every open block, and the bracket that
closes a block like its header.  Empty lines say nothing.  Inside a document only its end mark is
looked for.
-/

namespace JobFile

/-- An open block, with the entries before it in the block around it. -/
structure Reader.Frame where
  keyword : String
  name : Option String
  before : List Entry

/-- What has been read. -/
structure Reader where
  /-- The open blocks, the innermost first. -/
  opened : List Reader.Frame := []
  /-- The entries of the innermost block. -/
  entries : List Entry := []
  /-- The key and the lines of a document that has not ended. -/
  document : Option (String × List (List Char)) := none

namespace Reader

/-- How many blocks are open. -/
def depth (r : Reader) : Nat := r.opened.length

/-- Adds entries to the innermost block. -/
def add (r : Reader) (es : List Entry) : Reader := { r with entries := r.entries ++ es }

/-- A reader in a block that has just been opened. -/
def enter (r : Reader) (keyword : String) (name : Option String) : Reader where
  opened := ⟨keyword, name, r.entries⟩ :: r.opened

/-- Takes a line of the given shape in. -/
def place (r : Reader) : Shape → Option Reader
  | .close =>
    match r.opened with
    | [] => none
    | f :: outer =>
      some { opened := outer, entries := f.before ++ [.block f.keyword f.name r.entries] }
  | .opening keyword name => some (r.enter keyword name)
  | .empty keyword name => some (r.add [.empty keyword name])
  | .assign key token => some (r.add [.assign key token])
  | .document key => some { r with document := some (key, []) }

/-- The blocks around a line of the given shape. -/
def around (r : Reader) : Shape → Nat
  | .close => r.depth - 1
  | _ => r.depth

/-- The characters of a line behind its indentation. -/
def unindented (line : List Char) : List Char := line.dropWhile (· == ' ')

/-- Reads a line. -/
def step (r : Reader) (line : List Char) : Option Reader :=
  match r.document with
  | some (key, lines) =>
    if line = Assign.endMark.toList then
      let text := String.ofList (['\n'].intercalate lines)
      some { r with entries := r.entries ++ [.document key text], document := none }
    else some { r with document := some (key, lines ++ [line]) }
  | none =>
    if line = [] then some r
    else
      match Shape.ofLine? (unindented line) with
      | some shape =>
        if line.length = 2 * r.around shape + (unindented line).length then r.place shape else none
      | none => none

/-- Reads the lines of a text. -/
def readFrom (r : Reader) (cs : List Char) : Option Reader := (cs.splitOn '\n').foldlM step r

/-- The entries of a text in which every block and every document ends. -/
def read (text : String) : Option (List Entry) :=
  match readFrom {} text.toList with
  | some ⟨[], entries, none⟩ => some entries
  | _ => none

@[simp] theorem add_depth (r : Reader) (es : List Entry) : (r.add es).depth = r.depth := rfl

@[simp] theorem add_document (r : Reader) (es : List Entry) :
    (r.add es).document = r.document := rfl

@[simp] theorem add_nil (r : Reader) : r.add [] = r := by
  simp [add]

@[simp] theorem add_add (r : Reader) (xs ys : List Entry) :
    (r.add xs).add ys = r.add (xs ++ ys) := by
  simp [add]

@[simp] theorem enter_depth (r : Reader) (keyword : String) (name : Option String) :
    (r.enter keyword name).depth = r.depth + 1 := rfl

@[simp] theorem enter_document (r : Reader) (keyword : String) (name : Option String) :
    (r.enter keyword name).document = none := rfl

/-- Closing a block that has been filled adds the whole block to what stands around it. -/
theorem place_close {r : Reader} (h : r.document = none) (keyword : String)
    (name : Option String) (es : List Entry) :
    ((r.enter keyword name).add es).place .close = some (r.add [.block keyword name es]) := by
  obtain ⟨opened, entries, document⟩ := r
  cases (h : document = none)
  rfl

/-! ## One line -/

theorem readFrom_cons {line : List Char} (h : '\n' ∉ line) (r : Reader) (rest : List Char) :
    readFrom r (line ++ '\n' :: rest) = (r.step line).bind fun r => readFrom r rest := by
  unfold readFrom
  rw [List.splitOn_append_cons_self_of_not_mem h]
  rfl

theorem step_nil {r : Reader} (h : r.document = none) : r.step [] = some r := by
  simp [step, h]

theorem unindented_append {text : List Char} (h : text.head? ≠ some ' ') (n : Nat) :
    unindented (List.replicate n ' ' ++ text) = text := by
  unfold unindented
  rw [List.dropWhile_append_of_pos (by simp)]
  cases text with
  | nil => rfl
  | cons c cs =>
    have hc : c ≠ ' ' := by simpa using h
    rw [List.dropWhile_cons_of_neg (by simpa using hc)]

theorem step_shape {r : Reader} (h : r.document = none) {text : List Char} {shape : Shape}
    (hs : Shape.ofLine? text = some shape) :
    r.step (List.replicate (2 * r.around shape) ' ' ++ text) = r.place shape := by
  have hhead : text.head? ≠ some ' ' := by
    intro hc
    obtain ⟨cs, rfl⟩ := List.head?_eq_some_iff.1 hc
    cases hs
  have hne : List.replicate (2 * r.around shape) ' ' ++ text ≠ [] := by
    intro hnil
    rw [(List.append_eq_nil_iff.1 hnil).2] at hs
    cases hs
  have hlen : (List.replicate (2 * r.around shape) ' ' ++ text).length =
      2 * r.around shape + text.length := by simp
  simp only [step, h, if_neg hne, unindented_append hhead, hs, hlen, if_true]

/-- A line of a printed entry, with the line break after it. -/
theorem readFrom_line {r : Reader} (h : r.document = none) {text : String} {shape : Shape}
    (hs : Shape.ofLine? text.toList = some shape) (hn : '\n' ∉ text.toList) (rest : List Char) :
    readFrom r ((indentation (r.around shape) ++ text ++ "\n").toList ++ rest) =
      (r.place shape).bind fun r => readFrom r rest := by
  have htext : (indentation (r.around shape) ++ text ++ "\n").toList ++ rest =
      (List.replicate (2 * r.around shape) ' ' ++ text.toList) ++ '\n' :: rest := by
    simp [indentation]
  have hline : '\n' ∉ List.replicate (2 * r.around shape) ' ' ++ text.toList := by
    intro hmem
    rcases List.mem_append.1 hmem with hmem | hmem
    · exact absurd (List.eq_of_mem_replicate hmem) (by decide)
    · exact hn hmem
  rw [htext, readFrom_cons hline, step_shape h hs]

theorem readFrom_separator {r : Reader} (h : r.document = none) (first : Bool)
    (rest : List Char) : readFrom r ((Item.separator first).toList ++ rest) = readFrom r rest := by
  cases first with
  | true => rfl
  | false =>
    have hnil : '\n' ∉ ([] : List Char) := List.not_mem_nil
    have hblank := readFrom_cons hnil r rest
    rw [step_nil h] at hblank
    exact hblank

/-! ## Documents -/

/-- The lines of a document are kept up to its end mark. -/
theorem foldlM_document (key : String) (ls : List (List Char)) :
    ∀ (r : Reader) (kept : List (List Char)), Assign.endMark.toList ∉ ls →
      r.document = some (key, kept) →
      ls.foldlM step r = some { r with document := some (key, kept ++ ls) } := by
  induction ls with
  | nil =>
    intro r kept _ hr
    rw [List.append_nil, ← hr]
    rfl
  | cons l ls ih =>
    intro r kept hmark hr
    rw [List.mem_cons, not_or] at hmark
    obtain ⟨hl, hls⟩ := hmark
    have hstep : r.step l = some { r with document := some (key, kept ++ [l]) } := by
      simp only [step, hr]
      rw [if_neg (Ne.symm hl)]
    rw [List.foldlM_cons, hstep]
    have hnext := ih { r with document := some (key, kept ++ [l]) } (kept ++ [l]) hls rfl
    rw [List.append_assoc] at hnext
    exact hnext

/-- The end mark adds what has been kept, as a document. -/
theorem step_endMark {r : Reader} {key : String} {text : List Char}
    (h : r.document = some (key, text.splitOn '\n')) :
    r.step Assign.endMark.toList =
      some ({ r with document := none }.add [.document key (String.ofList text)]) := by
  simp only [step, h, if_true, List.intercalate_splitOn]
  rfl

/-- A document is read up to its end mark, if none of its own lines is one. -/
theorem readFrom_document {r : Reader} (h : r.document = none) (key text : String)
    (hmark : Assign.endMark.toList ∉ text.toList.splitOn '\n') (rest : List Char) :
    readFrom { r with document := some (key, []) }
        (text.toList ++ ("\n" ++ Assign.endMark ++ "\n").toList ++ rest) =
      readFrom (r.add [.document key text]) rest := by
  have htext : text.toList ++ ("\n" ++ Assign.endMark ++ "\n").toList ++ rest =
      text.toList ++ '\n' :: (Assign.endMark.toList ++ '\n' :: rest) := by simp
  have hend : '\n' ∉ Assign.endMark.toList := by decide
  unfold readFrom
  rw [htext, List.splitOn_append_cons_self, List.splitOn_append_cons_self_of_not_mem hend,
    List.foldlM_append, foldlM_document key _ _ [] hmark rfl, List.nil_append]
  show (step { r with document := some (key, text.toList.splitOn '\n') }
    Assign.endMark.toList).bind (fun r => (rest.splitOn '\n').foldlM step r) = _
  rw [step_endMark rfl, String.ofList_toList]
  obtain ⟨opened, entries, document⟩ := r
  cases (h : document = none)
  rfl

end Reader

end JobFile
