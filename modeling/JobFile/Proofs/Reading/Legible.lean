import JobFile.Proofs.Reading.Reader
import JobFile.Proofs.Reading.Token

/-!
# What is printed is read back

* `Entry.Legible`       : the keys of an entry are plain, its values tokens, and no line of its
  documents is an end mark;
* `Entry.read_assign`, `Entry.read_document`, `Entry.read_empty`, `Entry.read_block` : reading what
  has been printed for an entry of this kind adds the entry, and goes on with the rest;
* `Entry.read_items`    : so does reading any printed entry;
* `Entry.read_allItems` : so does reading printed entries in a row.
-/

namespace JobFile

namespace Entry

mutual
/-- Can an entry be read back? -/
def Legible : Entry → Prop
  | .assign key token => Text.isPlain key ∧ Text.OneLine token
  | .document key text =>
    Text.isPlain key ∧ Assign.endMark.toList ∉ text.toList.splitOn '\n'
  | .empty keyword _ => Text.isPlain keyword
  | .block keyword _ entries => Text.isPlain keyword ∧ AllLegible entries
/-- Can each of the entries be read back? -/
def AllLegible : List Entry → Prop
  | [] => True
  | e :: es => e.Legible ∧ AllLegible es
end

theorem AllLegible.append {xs ys : List Entry} (hx : AllLegible xs) (hy : AllLegible ys) :
    AllLegible (xs ++ ys) := by
  induction xs with
  | nil => exact hy
  | cons x xs ih => exact ⟨hx.1, ih hx.2⟩

theorem allLegible_flatten {ess : List (List Entry)} (h : ∀ es ∈ ess, AllLegible es) :
    AllLegible ess.flatten := by
  induction ess with
  | nil => exact trivial
  | cons es ess ih =>
    rw [List.flatten_cons]
    exact (h es List.mem_cons_self).append (ih fun fs hf => h fs (List.mem_cons_of_mem es hf))

/-! ## Reading each kind of entry -/

section

variable {r : Reader} (hr : r.document = none) {key : String} (hkey : Text.isPlain key)
include hr hkey

theorem read_assign {token : String} (htoken : Text.OneLine token) (first : Bool)
    (rest : List Char) :
    r.readFrom ((Item.printAll r.depth first (Entry.assign key token).items).toList ++ rest) =
      (r.add [.assign key token]).readFrom rest := by
  have hline : '\n' ∉ (key ++ " = " ++ token).toList := by
    have hk := Text.newline_not_mem_of_plain hkey
    simp [hk, htoken.line]
  rw [items, Item.printAll_singleton, Item.print]
  exact Reader.readFrom_line hr (Shape.ofLine?_assign hkey htoken.token) hline rest

/-- A document is read behind the line that opens it, as text. -/
theorem read_document {text : String} (hmark : Assign.endMark.toList ∉ text.toList.splitOn '\n')
    (first : Bool) (rest : List Char) :
    r.readFrom ((Item.printAll r.depth first (Entry.document key text).items).toList ++ rest) =
      (r.add [.document key text]).readFrom rest := by
  have hline : '\n' ∉ (key ++ " = <<" ++ Assign.endMark).toList := by
    have hk := Text.newline_not_mem_of_plain hkey
    simp [hk, Assign.endMark]
  have hfirst := Reader.readFrom_line hr (Shape.ofLine?_document hkey) hline
    (text.toList ++ ("\n" ++ Assign.endMark ++ "\n").toList ++ rest)
  have htext : (Item.printAll r.depth first (Entry.document key text).items).toList ++ rest =
      (indentation r.depth ++ (key ++ " = <<" ++ Assign.endMark) ++ "\n").toList ++
        (text.toList ++ ("\n" ++ Assign.endMark ++ "\n").toList ++ rest) := by
    simp [items, Item.printAll, Item.print]
  rw [htext]
  exact hfirst.trans (Reader.readFrom_document hr key text hmark rest)

theorem read_empty (name : Option String) (first : Bool) (rest : List Char) :
    r.readFrom ((Item.printAll r.depth first (Entry.empty key name).items).toList ++ rest) =
      (r.add [.empty key name]).readFrom rest := by
  have hline := newline_not_mem_headerLine hkey name "\x7b\x7d" (by decide)
  rw [items, Item.printAll_singleton, Item.print]
  exact Reader.readFrom_line hr (Shape.ofLine?_empty hkey name) hline rest

/-- A block is read if what is inside it is read, one block deeper. -/
theorem read_block (name : Option String) (entries : List Entry) (first : Bool)
    (rest : List Char)
    (hinner : ∀ after, (r.enter key name).readFrom
      ((Item.printAll (r.depth + 1) true (allItems entries)).toList ++ after) =
        ((r.enter key name).add entries).readFrom after) :
    r.readFrom ((Item.printAll r.depth first (Entry.block key name entries).items).toList ++ rest)
      = (r.add [.block key name entries]).readFrom rest := by
  have hline := newline_not_mem_headerLine hkey name "\x7b" (by decide)
  have hopen := Reader.readFrom_line hr (Shape.ofLine?_header hkey name) hline
  have hmark : Shape.ofLine? "\x7d".toList = some .close := Shape.ofLine?_close
  have hclose := Reader.readFrom_line (r := (r.enter key name).add entries) rfl hmark
    (by decide) rest
  rw [Reader.place_close hr] at hclose
  have htext : (Item.printAll r.depth first (Entry.block key name entries).items).toList
      ++ rest = (Item.separator first).toList ++
        ((indentation r.depth ++ headerLine key name "\x7b" ++ "\n").toList ++
          ((Item.printAll (r.depth + 1) true (allItems entries)).toList ++
            ((indentation r.depth ++ "\x7d" ++ "\n").toList ++ rest))) := by
    simp [items, Item.printAll, Item.print]
  rw [htext, Reader.readFrom_separator hr]
  exact (hopen _).trans ((hinner _).trans hclose)

end

/-! ## Reading entries -/

mutual
/-- **A printed entry is read as this entry**, whatever follows it. -/
theorem read_items : ∀ (e : Entry) (r : Reader) (first : Bool) (rest : List Char), e.Legible →
    r.document = none →
    r.readFrom ((Item.printAll r.depth first e.items).toList ++ rest) = (r.add [e]).readFrom rest
  | .assign _ _, _, first, rest, h, hr => read_assign hr h.1 h.2 first rest
  | .document _ _, _, first, rest, h, hr => read_document hr h.1 h.2 first rest
  | .empty _ name, _, first, rest, h, hr => read_empty hr h name first rest
  | .block keyword name entries, r, first, rest, h, hr => by
    refine read_block hr h.1 name entries first rest fun after => ?_
    exact read_allItems entries (r.enter keyword name) true after h.2 rfl
/-- **Printed entries are read as these entries**, whatever follows them. -/
theorem read_allItems : ∀ (es : List Entry) (r : Reader) (first : Bool) (rest : List Char),
    AllLegible es → r.document = none →
    r.readFrom ((Item.printAll r.depth first (allItems es)).toList ++ rest) =
      (r.add es).readFrom rest
  | [], r, first, rest, _, _ => by
    simp [allItems, Item.printAll]
  | e :: es, r, first, rest, h, hr => by
    rw [allItems, Item.printAll_append, String.toList_append, List.append_assoc,
      read_items e r first _ h.1 hr]
    have ih := read_allItems es (r.add [e]) (first && e.items.isEmpty) rest h.2 hr
    rw [Reader.add_add] at ih
    exact ih
end

end Entry

end JobFile
